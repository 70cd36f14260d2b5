import RecordGraph.Proofs.Build.References
/-! The order of mapping. Whichever of two host types is mapped first is built inside no traversal of the other,
and still both orders come to the same types: each entry is made of its piece, whatever path led there, and both
orders end with the pieces that the two host types lead to. -/

namespace RecordGraph

/-- The same type; of a scalar only its name counts. -/
inductive WireType.Same : WireType → WireType → Prop
  | refl (t : WireType) : Same t t
  | scalar {a b : ScalarType} : a.wireName = b.wireName → Same (.scalar a) (.scalar b)

/-- Two registries hold the same types under the same names, in whatever order. -/
structure Registry.Same (r r' : Registry WireType) : Prop where
  names : r.names.Perm r'.names
  types : ∀ name, Option.Rel WireType.Same (r.get? name) (r'.get? name)

/-- Two mappings in both orders, from one draft. -/
structure BothOrders (s : Setting) (m m' : Mapping) (d d₁ d₁₂ d₂ d₂₁ : Draft) : Prop where
  first : ∃ steps ref, (m.run (.within s steps)).Gives d ref d₁
  firstThen : ∃ steps ref, (m'.run (.within s steps)).Gives d₁ ref d₁₂
  second : ∃ steps ref, (m'.run (.within s steps)).Gives d ref d₂
  secondThen : ∃ steps ref, (m.run (.within s steps)).Gives d₂ ref d₂₁

namespace BothOrders

variable {s : Setting} {ms : List Mapping} {m m' : Mapping} {d d₁ d₁₂ d₂ d₂₁ : Draft}

theorem swap (h : BothOrders s m m' d d₁ d₁₂ d₂ d₂₁) : BothOrders s m' m d d₂ d₂₁ d₁ d₁₂ :=
  ⟨h.second, h.secondThen, h.first, h.firstThen⟩

theorem grows (h : BothOrders s m m' d d₁ d₁₂ d₂ d₂₁) : d.Grows d₁₂ := by
  obtain ⟨_, _, hfirst⟩ := h.first
  obtain ⟨_, _, hfirstThen⟩ := h.firstThen
  exact (Mapping.covers_run hfirst).1.grows.trans (Mapping.covers_run hfirstThen).1.grows

theorem sound (h : BothOrders s m m' d d₁ d₁₂ d₂ d₂₁) (hd : d.Sound s ms) (hm : m ∈ ms) (hm' : m' ∈ ms) :
    d₁₂.Sound s ms := by
  obtain ⟨_, _, hfirst⟩ := h.first
  obtain ⟨_, _, hfirstThen⟩ := h.firstThen
  exact (hd.run hm hfirst).run hm' hfirstThen

/-- What a host type stands for stands in the end though the other one was mapped first. -/
theorem stands (h : BothOrders s m m' d d₁ d₁₂ d₂ d₂₁) (ht : s.Tidy ms) (hd : d.Sound s ms) (hm : m ∈ ms)
    (hm' : m' ∈ ms) (hdistinct : m.Distinct s ms) (hdistinct' : m'.Distinct s ms) (hno : ¬ m.Finds d) :
    ∀ p ∈ m.piece? s true, d₂₁.Stands p := by
  intro p hp
  obtain ⟨_, _, hfirst⟩ := h.first
  obtain ⟨_, _, hfirstThen⟩ := h.firstThen
  obtain ⟨_, _, hsecond⟩ := h.second
  obtain ⟨_, _, hsecondThen⟩ := h.secondThen
  obtain ⟨hfinds, rfl⟩ | ⟨-, hstands⟩ := Mapping.finds_or_stands hsecondThen
  swap
  · exact hstands p hp
  have hd₁ : d₁.Sound s ms := hd.run hm hfirst
  have hd₁₂ : d₁₂.Sound s ms := h.sound hd hm hm'
  have hreach : s.Reaches ms p := Setting.reaches_of_piece? hm p hp
  obtain ⟨hno', p', hp', -, q, hpath, hqs, rfl | hclash⟩ :=
    Mapping.found ht (hd.run hm' hsecond) hm hm' hdistinct hsecond hno hfinds hp
  · exact hqs
  -- What it found is not its own, so in the other order its own is there beside what the other one stands for.
  exfalso
  have hreach' : s.Reaches ms p' := Setting.reaches_of_piece? hm' p' hp'
  have hps : d₁.Stands p := by
    obtain ⟨hfound, -⟩ | ⟨-, hstands⟩ := Mapping.finds_or_stands hfirst
    · exact absurd hfound hno
    · exact hstands p hp
  obtain ⟨hfinds', rfl⟩ | ⟨-, hstands'⟩ := Mapping.finds_or_stands hfirstThen
  · obtain ⟨-, p₀, hp₀, -, q', hpath', hqs', rfl | hclash'⟩ :=
      Mapping.found ht hd₁ hm' hm hdistinct' hfirst hno' hfinds' hp'
    · exact hclash.not_stands hd₁ ht hreach hps (hd₁.stands ht hreach' hqs' hpath)
    · obtain rfl := Option.mem_unique hp hp₀
      exact hclash.not_mutual hclash' hd₁ ht hreach hreach' hps hpath' hpath
  · have hps' : d₁₂.Stands p := hps.mono (Mapping.covers_run hfirstThen).1.grows.upholds
    exact hclash.not_stands hd₁₂ ht hreach hps' (hd₁₂.stands ht hreach' (hstands' p' hp') hpath)

/-- Whatever the first order ends with is made of a piece that stands at the end of the second one. -/
theorem entry_stands (h : BothOrders s m m' d d₁ d₁₂ d₂ d₂₁) (ht : s.Tidy ms) (hd : d.Sound s ms) (hm : m ∈ ms)
    (hm' : m' ∈ ms) (hdistinct : m.Distinct s ms) (hdistinct' : m'.Distinct s ms) {name : String} {t : WireType}
    (hget : d₁₂.types.get? name = some t) :
    ∃ p, s.Reaches ms p ∧ p.name = name ∧ p.Makes s {} d₁₂ t ∧ d₂₁.Stands p := by
  have hstands := h.stands ht hd hm hm' hdistinct hdistinct'
  obtain ⟨_, _, hfirst⟩ := h.first
  obtain ⟨_, _, hfirstThen⟩ := h.firstThen
  obtain ⟨_, _, hsecond⟩ := h.second
  obtain ⟨_, _, hsecondThen⟩ := h.secondThen
  have hg₁ : d.Grows d₁ := (Mapping.covers_run hfirst).1.grows
  have hg₁₂ : d₁.Grows d₁₂ := (Mapping.covers_run hfirstThen).1.grows
  have hg₂₁ : d₂.Grows d₂₁ := (Mapping.covers_run hsecondThen).1.grows
  have hd₂₁ : d₂₁.Sound s ms := h.swap.sound hd hm' hm
  have hstart : ({} : Draft).Grows d := Draft.Covers.grows hd
  cases hbase : d.types.get? name with
  | some u =>
    cases (hg₁₂.types (hg₁.types hbase)).symm.trans hget
    obtain ⟨p, hp, rfl, hmakes, -⟩ := hd.entry hbase
    exact ⟨p, hp, rfl, hmakes.widen (.refl _) (hg₁.trans hg₁₂).upholds,
      (hmakes.stands hbase).mono h.swap.grows.upholds⟩
  | none =>
    cases hmid : d₁.types.get? name with
    | some u =>
      cases (hg₁₂.types hmid).symm.trans hget
      obtain ⟨hno, p, hp, -, q, hpath, rfl, hmakes⟩ := Mapping.added hfirst hbase hmid
      have hreach : s.Reaches ms p := Setting.reaches_of_piece? hm p hp
      exact ⟨q, hreach.trans hpath, rfl, hmakes.widen hstart hg₁₂.upholds,
        hd₂₁.stands ht hreach (hstands hno p hp) hpath⟩
    | none =>
      obtain ⟨hno, p, hp, -, q, hpath, rfl, hmakes⟩ := Mapping.added hfirstThen hmid hget
      have hreach : s.Reaches ms p := Setting.reaches_of_piece? hm' p hp
      have hps : d₂.Stands p := by
        obtain ⟨hfinds, -⟩ | ⟨-, hstands⟩ := Mapping.finds_or_stands hsecond
        · exact absurd (hfinds.mono hg₁) hno
        · exact hstands p hp
      exact ⟨q, hreach.trans hpath, rfl, hmakes.widen (hstart.trans hg₁) (.refl _),
        hd₂₁.stands ht hreach (hps.mono hg₂₁.upholds) hpath⟩

end BothOrders

/-! What is made of one piece is the same type. -/

theorem Draft.Marked.has_marker {d : Draft} (h : d.Marked) {name : String} (hname : name ∈ markerNames) :
    d.types.Has name (Piece.marker name).kind := by
  simp only [markerNames, List.mem_cons, List.not_mem_nil, or_false] at hname
  rcases hname with rfl | rfl | rfl | rfl
  · exact h.pageInfo.has fun _ => WireType.kind_of_isObject
  · exact h.node.has fun _ => WireType.kind_of_isInterface
  · exact h.edge.has fun _ => WireType.kind_of_isInterface
  · exact h.connection.has fun _ => WireType.kind_of_isInterface

section
variable {s : Setting} {ms : List Mapping} {d d' e e' : Draft} {p : Piece} {t u : WireType}

theorem MarkerType.name_mem (h : MarkerType s t) : t.name ∈ markerNames := by
  obtain ⟨id, string, boolean, -, -, -, ht⟩ := h
  simp only [Build.markerTypes, List.mem_cons, List.not_mem_nil, or_false] at ht
  rcases ht with rfl | rfl | rfl | rfl <;> simp [markerNames, WireType.name]

theorem MarkerType.eq (h : MarkerType s t) (h' : MarkerType s u) (hname : t.name = u.name) : t = u := by
  obtain ⟨id, string, boolean, hid, hstring, hboolean, ht⟩ := h
  obtain ⟨id', string', boolean', hid', hstring', hboolean', hu⟩ := h'
  obtain rfl := Option.some.inj (hid.symm.trans hid')
  obtain rfl := Option.some.inj (hstring.symm.trans hstring')
  obtain rfl := Option.some.inj (hboolean.symm.trans hboolean')
  have hnodup : ((Build.markerTypes s id string boolean).map WireType.name).Nodup := by
    simp only [Build.markerTypes, List.map_cons, List.map_nil, WireType.name]
    decide
  exact List.inj_on_of_nodup_map hnodup ht hu hname

/-- Whatever a piece makes elsewhere, something has its name where it stands, of its kind unless the piece is a
connection type that was noted. -/
theorem Draft.Sound.found_of_stands (hd : d.Sound s ms) (ht : s.Tidy ms) (hp : s.Reaches ms p)
    (hmakes : p.Makes s e e' t) (h : d.Stands p) :
    ∃ u, d.types.get? p.name = some u ∧ (u.kind = p.kind ∨ p.kind = "object" ∧ ∃ kind r, p = .connection kind r) := by
  cases p with
  | marker name =>
    obtain ⟨u, hu, hk⟩ := (hd.marked ht hp h).1.has_marker (hmakes.1 ▸ MarkerType.name_mem hmakes.2.1)
    exact ⟨u, hu, .inl hk⟩
  | connection kind r =>
    have hne : d.types.get? (r.name ++ "Connection") ≠ none := h.elim (·.1) (·.1.ne_none)
    obtain ⟨u, hu⟩ := Option.ne_none_iff_exists'.mp hne
    exact ⟨u, hu, .inr ⟨rfl, kind, r, rfl⟩⟩
  | _ =>
    obtain ⟨u, hu, hk⟩ := h
    exact ⟨u, hu, .inl hk⟩

theorem Piece.Makes.same (ht : s.Tidy ms) (hp : s.Reaches ms p) (h : p.Makes s d d' t) (h' : p.Makes s e e' u) :
    WireType.Same t u := by
  obtain ⟨houtputs, hinputs⟩ := ht.direct hp
  have houtput {declared : List Field} {fields fields' : List WireField}
      (hown : p.outputs = declared.filter Field.inOutput) (hf : OutputForms s d d' declared fields)
      (hf' : OutputForms s e e' declared fields') : fields = fields' := by
    have hdirect : ∀ f ∈ declared.filter Field.inOutput, f.Direct := fun f hf => (houtputs f (hown ▸ hf)).2
    exact Option.some.inj ((outputFields?_eq hf hdirect).symm.trans (outputFields?_eq hf' hdirect))
  cases p with
  | scalar wireName =>
    obtain ⟨a, ha, rfl⟩ := h
    obtain ⟨b, hb, rfl⟩ := h'
    exact .scalar (ha.trans hb.symm)
  | enum type =>
    obtain rfl : t = .enum type := h
    obtain rfl : u = .enum type := h'
    exact .refl _
  | marker name =>
    rw [h.2.1.eq h'.2.1 (h.1.trans h'.1.symm)]
    exact .refl _
  | object r =>
    obtain ⟨fields, hf, rfl⟩ := h
    obtain ⟨fields', hf', rfl⟩ := h'
    rw [houtput rfl hf hf']
    exact .refl _
  | interface r =>
    obtain ⟨fields, hf, rfl⟩ := h
    obtain ⟨fields', hf', rfl⟩ := h'
    rw [houtput rfl hf hf']
    exact .refl _
  | node r =>
    obtain ⟨fields, hf, rfl⟩ := h
    obtain ⟨fields', hf', rfl⟩ := h'
    rw [houtput rfl hf hf']
    exact .refl _
  | connection kind r =>
    obtain ⟨-, -, fields, hf, rfl⟩ := h
    obtain ⟨-, -, fields', hf', rfl⟩ := h'
    rw [houtput rfl hf hf']
    exact .refl _
  | edge r =>
    obtain ⟨cursor, hc, rfl⟩ := h
    obtain ⟨cursor', hc', rfl⟩ := h'
    rw [Option.some.inj (hc.symm.trans hc')]
    exact .refl _
  | input r =>
    obtain ⟨fields, hf, rfl⟩ := h
    obtain ⟨fields', hf', rfl⟩ := h'
    have hfields := mapM_of_forall₂ hf fun f hf _ hform => hform.eq (hinputs f hf)
    have hfields' := mapM_of_forall₂ hf' fun f hf _ hform => hform.eq (hinputs f hf)
    rw [Option.some.inj (hfields.symm.trans hfields')]
    exact .refl _

end

namespace BothOrders

variable {s : Setting} {ms : List Mapping} {m m' : Mapping} {d d₁ d₁₂ d₂ d₂₁ : Draft}

/-- Whatever the first order ends with, the second one ends with too. -/
theorem entry_same (h : BothOrders s m m' d d₁ d₁₂ d₂ d₂₁) (ht : s.Tidy ms) (hd : d.Sound s ms) (hm : m ∈ ms)
    (hm' : m' ∈ ms) (hdistinct : m.Distinct s ms) (hdistinct' : m'.Distinct s ms) {name : String} {t : WireType}
    (hget : d₁₂.types.get? name = some t) : ∃ u, d₂₁.types.get? name = some u ∧ WireType.Same t u := by
  obtain ⟨p, hp, rfl, hmakes, hps⟩ := h.entry_stands ht hd hm hm' hdistinct hdistinct' hget
  obtain ⟨u, hu, hkind⟩ := (h.swap.sound hd hm' hm).found_of_stands ht hp hmakes hps
  obtain ⟨q, hq, hname, hmakes', hqs⟩ := h.swap.entry_stands ht hd hm' hm hdistinct' hdistinct hu
  obtain ⟨t', ht', hkind'⟩ := (h.sound hd hm hm').found_of_stands ht hq hmakes' hqs
  obtain rfl : t' = t := Option.some.inj ((hname ▸ ht').symm.trans hget)
  -- Of two connection types one could be noted only, but each is registered in one of the orders.
  have hsame : p.kind = q.kind := by
    rcases hkind with hkind | ⟨hkind, -⟩
    · exact hkind.symm.trans hmakes'.kind_eq
    · rcases hkind' with hkind' | ⟨hkind', -⟩
      · exact hmakes.kind_eq.symm.trans hkind'
      · exact hkind.trans hkind'.symm
  obtain rfl := ht.eq_of_name hp hq hname.symm hsame
  exact ⟨u, hu, hmakes.same ht hp hmakes'⟩

end BothOrders

theorem Registry.Same.kind_eq {r r' : Registry WireType} (h : r.Same r') (name : String) :
    (r.get? name).map WireType.kind = (r'.get? name).map WireType.kind := by
  have hrel := h.types name
  generalize r.get? name = t, r'.get? name = u at hrel
  cases hrel with
  | none => rfl
  | some hsame =>
    cases hsame with
    | refl => rfl
    | scalar => rfl

theorem Registry.Same.of_entries {r r' : Registry WireType} (hr : r.names.Nodup) (hr' : r'.names.Nodup)
    (h : ∀ {name t}, r.get? name = some t → ∃ u, r'.get? name = some u ∧ WireType.Same t u)
    (h' : ∀ {name t}, r'.get? name = some t → ∃ u, r.get? name = some u ∧ WireType.Same t u) : r.Same r' where
  names := by
    have hmem {r r' : Registry WireType} {name : String}
        (h : ∀ {name t}, r.get? name = some t → ∃ u, r'.get? name = some u ∧ WireType.Same t u)
        (hname : name ∈ r.names) : name ∈ r'.names := by
      by_contra hno
      obtain ⟨t, ht⟩ := Option.ne_none_iff_exists'.mp fun hn => get?_eq_none_iff_names.mp hn hname
      obtain ⟨u, hu, -⟩ := h ht
      cases (get?_eq_none_iff_names.mpr hno).symm.trans hu
    exact (List.perm_ext_iff_of_nodup hr hr').mpr fun name => ⟨hmem h, hmem h'⟩
  types name := by
    cases hget : r.get? name with
    | some t =>
      obtain ⟨u, hu, hsame⟩ := h hget
      rw [hu]
      exact .some hsame
    | none =>
      cases hget' : r'.get? name with
      | none => exact .none
      | some u =>
        obtain ⟨t, ht, -⟩ := h' hget'
        cases hget.symm.trans ht

/-- The order of mapping does not show. From any draft that mappings have led to, two host types mapped in either
order come to the same types, in a setting where names identify descriptors and no scalar has the name of a
reference that the two make. -/
theorem Draft.Reached.same_of_bothOrders {s : Setting} {ms : List Mapping} {m m' : Mapping}
    {d d₁ d₁₂ d₂ d₂₁ : Draft} (hd : d.Reached s ms) (ht : s.Tidy (ms ++ [m, m']))
    (hdistinct : m.Distinct s (ms ++ [m, m'])) (hdistinct' : m'.Distinct s (ms ++ [m, m']))
    (h : BothOrders s m m' d d₁ d₁₂ d₂ d₂₁) : d₁₂.types.Same d₂₁.types := by
  have hm : m ∈ ms ++ [m, m'] := by simp
  have hm' : m' ∈ ms ++ [m, m'] := by simp
  have hsound : d.Sound s (ms ++ [m, m']) := hd.sound.mono fun p hp => hp.mono (List.subset_append_left _ _)
  have hstart : d.types.names.Nodup := (Draft.Covers.grows hsound).distinct List.nodup_nil
  exact .of_entries (h.grows.distinct hstart) (h.swap.grows.distinct hstart)
    (h.entry_same ht hsound hm hm' hdistinct hdistinct')
    (h.swap.entry_same ht hsound hm' hm hdistinct' hdistinct)

/-- Authors have books, and books an author. -/
def author : Record :=
  { name := "Author"
    fields := [{ name := "name", type := .scalar "String" }, { name := "books", type := .list (.record "Book") }] }

def authored : Record :=
  { name := "Book"
    fields := [{ name := "title", type := .scalar "String" }, { name := "author", type := .record "Author" }] }

def library : Setting :=
  { catalogue := { records := [("Author", author), ("Book", authored)] }
    options := { queryTypes := [author] } }

theorem flat_library : library.Flat ["String"] [author, authored] := by
  have hscalar {name : String} :
      Field.Flat library ["String"] [author, authored] { name := name, type := .scalar "String" } := by
    refine ⟨rfl, rfl, rfl, fun p hp => ?_, fun p hp => ?_⟩ <;>
    · cases hp
      exact List.mem_cons_self
  have hauthor : author ∈ [author, authored] := List.mem_cons_self
  have hbook : authored ∈ [author, authored] := List.mem_cons_of_mem _ List.mem_cons_self
  simp only [Setting.Flat, List.forall_mem_cons, List.not_mem_nil, false_implies, implies_true, and_true]
  refine ⟨⟨rfl, ?_⟩, rfl, ?_⟩
  · simp only [author, List.forall_mem_cons, List.not_mem_nil, false_implies, implies_true, and_true]
    exact ⟨hscalar, rfl, rfl, rfl, fun p hp => by cases hp; exact hbook, fun p hp => by cases hp; exact hbook⟩
  · simp only [authored, List.forall_mem_cons, List.not_mem_nil, false_implies, implies_true, and_true]
    exact ⟨hscalar, rfl, rfl, rfl, fun p hp => by cases hp; exact hauthor, fun p hp => by cases hp; exact hauthor⟩

/-- The draft that a mapping leaves. -/
def Mapping.after (s : Setting) (m : Mapping) (d : Draft) : Draft := (m.run (.within s 9)).after d

theorem Mapping.gives_after {s : Setting} {m : Mapping} {d : Draft} {ref : TypeRef}
    (h : ((m.run (.within s 9)).outcome d).1.toOption = some ref) :
    (m.run (.within s 9)).Gives d ref (m.after s d) := by
  refine Prod.ext ?_ rfl
  cases hcase : ((m.run (.within s 9)).outcome d).1 with
  | ok ref' =>
    rw [hcase] at h
    cases h
    rfl
  | error e =>
    rw [hcase] at h
    cases h

/-- After books as inputs, authors and books as outputs are registered in either order. -/
theorem library_same : ∃ d d₁ d₁₂ d₂ d₂₁,
    d.Reached library [.input (.record "Book")] ∧
    library.Tidy ([.input (.record "Book")] ++ [.output (.named "Author"), .output (.record "Book")]) ∧
    BothOrders library (.output (.named "Author")) (.output (.record "Book")) d d₁ d₁₂ d₂ d₂₁ ∧
    d₁₂.types.names ≠ d₂₁.types.names ∧ d₁₂.types.Same d₂₁.types := by
  let books : Mapping := .input (.record "Book")
  let m : Mapping := .output (.named "Author")
  let m' : Mapping := .output (.record "Book")
  have hauthor : author ∈ [author, authored] := List.mem_cons_self
  have hbook : authored ∈ [author, authored] := List.mem_cons_of_mem _ List.mem_cons_self
  have hpieces : ∀ n ∈ [books] ++ [m, m'], ∀ p ∈ n.piece? library true, p.Flat ["String"] [author, authored] := by
    simp only [List.cons_append, List.nil_append, List.forall_mem_cons, List.not_mem_nil, false_implies,
      implies_true, and_true]
    exact ⟨fun p hp => by cases hp; exact hbook, fun p hp => by cases hp; exact hauthor,
      fun p hp => by cases hp; exact hbook⟩
  have htidy : library.Tidy ([books] ++ [m, m']) := flat_library.tidy hpieces (by decide) (by decide)
  let d := books.after library {}
  let d₁ := m.after library d
  let d₂ := m'.after library d
  have hd : d.Reached library [books] :=
    .snoc .start (Mapping.gives_after (show _ = some (.named "BookInput") by decide +kernel))
  have horders : BothOrders library m m' d d₁ (m'.after library d₁) d₂ (m.after library d₂) :=
    ⟨⟨9, .named "Author", Mapping.gives_after (by decide +kernel)⟩,
      ⟨9, .named "Book", Mapping.gives_after (by decide +kernel)⟩,
      ⟨9, .named "Book", Mapping.gives_after (by decide +kernel)⟩,
      ⟨9, .named "Author", Mapping.gives_after (by decide +kernel)⟩⟩
  have hnames : (m'.after library d₁).types.names ≠ (m.after library d₂).types.names := by decide +kernel
  refine ⟨d, _, _, _, _, hd, htidy, horders, hnames, hd.same_of_bothOrders htidy ?_ ?_ horders⟩
  · exact flat_library.distinct hpieces fun name hname => by cases hname; decide
  · exact flat_library.distinct hpieces fun name hname => by cases hname

/-- A name that a setting has twice may hide what a reference means. -/
def OrderShows (s : Setting) (m m' : Mapping) : Prop :=
  s.Tidy ([] ++ [m, m']) ∧ ∃ d₁ d₁₂ d₂ d₂₁, BothOrders s m m' {} d₁ d₁₂ d₂ d₂₁ ∧ ¬ d₁₂.types.Same d₂₁.types

/-- Two records, each with a text under the name of the other one in its field. -/
def order : Record := { name := "Order", fields := [{ name := "size", type := .scalar "Blob" }] }

def orderPart : Record := { name := "Part", fields := [{ name := "size", type := .scalar "Clob" }] }

def depot : Setting :=
  { catalogue := {}
    options := { scalars := [⟨"Blob", "Part", none, false, .string⟩, ⟨"Clob", "Order", none, false, .string⟩]
                 queryTypes := [order, orderPart] } }

theorem flat_depot : depot.Flat ["Part", "Order"] [order, orderPart] := by
  have hpart : "Part" ∈ ["Part", "Order"] := by decide
  have horder : "Order" ∈ ["Part", "Order"] := by decide
  simp only [Setting.Flat, List.forall_mem_cons, List.not_mem_nil, false_implies, implies_true, and_true]
  refine ⟨⟨rfl, ?_⟩, rfl, ?_⟩
  · simp only [order, List.forall_mem_cons, List.not_mem_nil, false_implies, implies_true, and_true]
    exact ⟨rfl, rfl, rfl, fun p hp => by cases hp; exact hpart, fun p hp => by cases hp; exact hpart⟩
  · simp only [orderPart, List.forall_mem_cons, List.not_mem_nil, false_implies, implies_true, and_true]
    exact ⟨rfl, rfl, rfl, fun p hp => by cases hp; exact horder, fun p hp => by cases hp; exact horder⟩

theorem order_shows_input : OrderShows depot (.input (.named "Order")) (.input (.scalar "Clob")) := by
  have hrecord : order ∈ [order, orderPart] := List.mem_cons_self
  have htext : "Order" ∈ ["Part", "Order"] := by decide
  refine ⟨flat_depot.tidy ?_ (by decide) (by decide), _, _, _, _,
    ⟨⟨9, .named "OrderInput", Mapping.gives_after (by decide +kernel)⟩,
      ⟨9, .named "Order", Mapping.gives_after (by decide +kernel)⟩,
      ⟨9, .named "Order", Mapping.gives_after (by decide +kernel)⟩,
      ⟨9, .named "Order", Mapping.gives_after (by decide +kernel)⟩⟩, fun hsame => ?_⟩
  · simp only [List.nil_append, List.forall_mem_cons, List.not_mem_nil, false_implies, implies_true, and_true]
    exact ⟨fun p hp => by cases hp; exact hrecord, fun p hp => by cases hp; exact htext⟩
  · exact absurd (hsame.kind_eq "OrderInput") (by decide +kernel)

theorem order_shows_output : OrderShows depot (.output (.named "Order")) (.output (.named "Part")) := by
  have hrecord : order ∈ [order, orderPart] := List.mem_cons_self
  have hpart : orderPart ∈ [order, orderPart] := List.mem_cons_of_mem _ List.mem_cons_self
  refine ⟨flat_depot.tidy ?_ (by decide) (by decide), _, _, _, _,
    ⟨⟨9, .named "Order", Mapping.gives_after (by decide +kernel)⟩,
      ⟨9, .named "Part", Mapping.gives_after (by decide +kernel)⟩,
      ⟨9, .named "Part", Mapping.gives_after (by decide +kernel)⟩,
      ⟨9, .named "Order", Mapping.gives_after (by decide +kernel)⟩⟩, fun hsame => ?_⟩
  · simp only [List.nil_append, List.forall_mem_cons, List.not_mem_nil, false_implies, implies_true, and_true]
    exact ⟨fun p hp => by cases hp; exact hrecord, fun p hp => by cases hp; exact hpart⟩
  · exact absurd (hsame.kind_eq "Order") (by decide +kernel)

/-- As an input and as an output, a reference finds a text in place of the record that it means, and either order
leaves something else. -/
theorem order_shows_depot : OrderShows depot (.input (.named "Order")) (.input (.scalar "Clob")) ∧
    OrderShows depot (.output (.named "Order")) (.output (.named "Part")) :=
  ⟨order_shows_input, order_shows_output⟩

end RecordGraph
