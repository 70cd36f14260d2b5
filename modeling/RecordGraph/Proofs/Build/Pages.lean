import RecordGraph.Proofs.Build.Origin
/-! What stands behind a field that answers pages. Its type is a connection type of its element, with edges,
nodes and the types that all connections share. Each of these types is known by its name and kind alone, so
a record or an interface that the schema declares under one of the names is taken for it; nothing else can
hold the name. A scalar of paging with the name of the connection type is left aside here, for it takes
that name while the connection type is under way. -/

namespace RecordGraph

/-- A field that the schema declares: of a record, or among the extra fields of a connection kind. -/
def Setting.DeclaresField (s : Setting) (roots : RootRecords) (f : Field) : Prop :=
  (∃ r ∈ s.declared roots, f ∈ r.fields) ∨ ∃ kind, f ∈ (Build.kindOf s kind).fields

/-- An object type made from a record that the schema declares under its name. -/
def DeclaredObject (s : Setting) (roots : RootRecords) (d : Draft) (t : ObjectType) : Prop :=
  ∃ r ∈ s.declared roots, ∃ fields, FieldForms s {} d r.fields fields ∧
    t = { name := r.name, description := r.description, fields := fields, interfaces := r.interfaces }

/-- An interface type made from an interface that the schema declares under its name. -/
def DeclaredInterface (s : Setting) (d : Draft) (t : InterfaceType) : Prop :=
  ∃ r ∈ s.options.interfaces, ∃ fields, FieldForms s {} d r.fields fields ∧
    t = { name := r.name, description := r.description, fields := fields }

/-- One of the types that are the same for every element. -/
def MarkerType (s : Setting) (t : WireType) : Prop :=
  ∃ id string boolean, s.outputRef? (.scalar "ID") = some id ∧
    s.outputRef? (.scalar "String") = some string ∧ s.outputRef? (.scalar "bool") = some boolean ∧
    t ∈ Build.markerTypes s id string boolean

/-- The connection type of an element: edges, page information, and the extra fields of a kind. -/
def ConnectionContent (s : Setting) (d : Draft) (element : String) (t : ObjectType) : Prop :=
  t.interfaces = ["Connection"] ∧ ∃ edges pageInfo kind extra, t.fields = edges :: pageInfo :: extra ∧
    edges.name = "edges" ∧ edges.type = .nonNull (.list (.nonNull (.named (element ++ "Edge")))) ∧
    pageInfo.name = s.wireName "page_info" ∧ pageInfo.type = .named "PageInfo" ∧
    FieldForms s {} d (Build.kindOf s kind).fields extra

/-- The edge type of an element: a node and a cursor, neither of which may be absent. -/
def EdgeContent (s : Setting) (element : String) (t : ObjectType) : Prop :=
  t.interfaces = ["Edge"] ∧ ∃ cursor, s.outputRef? (.scalar "String") = some cursor ∧
    t.fields = [.plain "node" (.nonNull (.named (element ++ "Node"))), .plain "cursor" (.nonNull cursor)]

/-- The node type of an element has the output fields of a record with its name. -/
def NodeContent (s : Setting) (d : Draft) (element : String) (t : ObjectType) : Prop :=
  t.interfaces = ["Node"] ∧ ∃ r ∈ s.knownRecords, r.name = element ∧ FieldForms s {} d r.fields t.fields

/-- The type of page information. -/
def PageInfoContent (s : Setting) (t : ObjectType) : Prop :=
  ∃ string boolean, s.outputRef? (.scalar "String") = some string ∧
    s.outputRef? (.scalar "bool") = some boolean ∧ t.fields.map (fun f => (f.name, f.type)) =
      [(s.wireName "has_next", .nonNull boolean), (s.wireName "has_previous", .nonNull boolean),
       (s.wireName "start_cursor", string), (s.wireName "end_cursor", string)]

/-- The object types that paging generates. -/
inductive Part where
  | pageInfo
  | node
  | edge
  | connection
  deriving DecidableEq

namespace Part

/-- The name of a generated type is that of its element, if it has one, and an end of its own. -/
def last : Part → String
  | .pageInfo => "PageInfo"
  | .node => "Node"
  | .edge => "Edge"
  | .connection => "Connection"

def Content (s : Setting) (d : Draft) (element : String) (t : ObjectType) : Part → Prop
  | .pageInfo => PageInfoContent s t
  | .node => NodeContent s d element t
  | .edge => EdgeContent s element t
  | .connection => ConnectionContent s d element t

end Part

/-- Under the name of a generated type stands one that the schema declares, or the type itself. -/
def ObjectUnder (s : Setting) (roots : RootRecords) (d : Draft) (element : String) (part : Part) : Prop :=
  ∃ t, d.types.get? (element ++ part.last) = some (.object t) ∧
    (DeclaredObject s roots d t ∨ part.Content s d element t)

/-- Under a name stands an interface that the schema declares, or that of paging. -/
def InterfaceUnder (s : Setting) (d : Draft) (name : String) : Prop :=
  ∃ t, d.types.get? name = some (.interface t) ∧ t.name = name ∧
    (DeclaredInterface s d t ∨ MarkerType s (.interface t))

/-- The types around a generated connection type. Where the schema declares the interface of connections
itself, paging registers none of the types that connections share. -/
structure Around (s : Setting) (roots : RootRecords) (d : Draft) (element : String) : Prop where
  edge : ObjectUnder s roots d element .edge
  node : ObjectUnder s roots d element .node
  connection : InterfaceUnder s d "Connection"
  shared : (∀ i ∈ s.options.interfaces, i.name ≠ "Connection") →
    ObjectUnder s roots d "" .pageInfo ∧ InterfaceUnder s d "Node" ∧ InterfaceUnder s d "Edge"

/-! Names. The generated names end in different letters. -/

/-- The last two letters of a name, the last one first. -/
def ending (name : String) : List Char := name.toList.reverse.take 2

theorem ending_append (base : String) {last : String} (h : 2 ≤ last.toList.length) :
    ending (base ++ last) = ending last := by
  unfold ending
  rw [String.toList_append, List.reverse_append, List.take_append_of_le_length (by simpa using h)]

theorem append_inj_left {base other last : String} (h : base ++ last = other ++ last) : base = other := by
  have hl := congrArg String.toList h
  rw [String.toList_append, String.toList_append] at hl
  exact String.toList_injective (List.append_cancel_right hl)

namespace Part

theorem two_le_length (part : Part) : 2 ≤ part.last.toList.length := by
  cases part <;> decide

theorem eq_of_ending {part other : Part} (h : ending part.last = ending other.last) : part = other := by
  revert h
  cases part <;> cases other <;> decide

/-- A name tells which type it belongs to. -/
theorem eq_of_append {part other : Part} {element name : String}
    (h : element ++ part.last = name ++ other.last) : part = other ∧ element = name := by
  have hend := congrArg ending h
  rw [ending_append _ part.two_le_length, ending_append _ other.two_le_length] at hend
  obtain rfl := eq_of_ending hend
  exact ⟨rfl, append_inj_left h⟩

end Part

/-! Origins by name. -/

section
variable {s : Setting} {roots : RootRecords} {d : Draft} {element : String}

theorem required_scalarRef {hostName : String} {ref : TypeRef}
    (h : s.outputRef? (.scalar hostName) = some ref) : ref.required = .nonNull ref :=
  TypeRef.required_of_not_nonNull (Setting.not_nonNull_of_outputRef? h)

/-- The types around a generated connection type are registered. -/
structure Held (d : Draft) (element : String) : Prop where
  node : d.types.Holds WireType.isObject (element ++ "Node")
  edge : d.types.Holds WireType.isObject (element ++ "Edge")
  connection : d.types.Holds WireType.isInterface "Connection"

/-- An object type is one that the schema declares, or a generated one under its name. -/
theorem declared_or_generated {t : ObjectType} (h : Origin s roots {} d (.object t)) :
    DeclaredObject s roots d t ∨ ∃ element, ∃ part : Part, t.name = element ++ part.last ∧
      part.Content s d element t ∧ (part = .connection → Held d element) := by
  cases h with
  | @marker id string boolean _ hid hstring hboolean ht hm =>
    simp only [Build.markerTypes, List.mem_cons, WireType.object.injEq, reduceCtorEq, List.not_mem_nil,
      or_false] at ht
    subst ht
    refine .inr ⟨"", .pageInfo, rfl, ⟨string, boolean, hstring, hboolean, ?_⟩, by rintro ⟨⟩⟩
    rw [required_scalarRef hboolean]
    rfl
  | record hr hf => exact .inl ⟨_, hr, _, hf, rfl⟩
  | node hr hf => exact .inr ⟨_, .node, rfl, ⟨rfl, _, hr, rfl, hf⟩, by rintro ⟨⟩⟩
  | @edge r cursor hr hcursor =>
    refine .inr ⟨r.name, .edge, rfl, ⟨rfl, cursor, hcursor, ?_⟩, by rintro ⟨⟩⟩
    rw [← required_scalarRef hcursor]
    rfl
  | connection hr hf hnode hedge hconnection =>
    refine .inr ⟨_, .connection, rfl, ⟨rfl, _, _, _, _, rfl, rfl, rfl, rfl, rfl, hf⟩, fun _ => ?_⟩
    exact ⟨hnode, hedge, hconnection⟩

theorem declared_or_marker {t : InterfaceType} (h : Origin s roots {} d (.interface t)) :
    DeclaredInterface s d t ∨ MarkerType s (.interface t) ∧ d.Marked := by
  cases h with
  | marker hid hstring hboolean ht hm => exact .inr ⟨⟨_, _, _, hid, hstring, hboolean, ht⟩, hm⟩
  | interface hr hf => exact .inl ⟨_, hr, _, hf, rfl⟩

/-! Where every type has an origin, names lead to what they say. -/

section
variable (horigin : ∀ {name t}, d.types.get? name = some t → name = t.name ∧ Origin s roots {} d t)
include horigin

theorem content_under {part : Part} {t : ObjectType}
    (ht : d.types.get? (element ++ part.last) = some (.object t)) :
    DeclaredObject s roots d t ∨
      part.Content s d element t ∧ (part = .connection → Held d element) := by
  obtain ⟨hname, ho⟩ := horigin ht
  refine (declared_or_generated ho).imp_right fun ⟨other, part', hname', hcontent, hheld⟩ => ?_
  obtain ⟨rfl, rfl⟩ := Part.eq_of_append (hname.trans hname')
  exact ⟨hcontent, hheld⟩

theorem objectUnder_of_holds {part : Part} (h : d.types.Holds WireType.isObject (element ++ part.last)) :
    ObjectUnder s roots d element part := by
  obtain ⟨t, ht⟩ := h.object
  exact ⟨t, ht, (content_under horigin ht).imp_right And.left⟩

theorem interfaceUnder_of_holds {name : String} (h : d.types.Holds WireType.isInterface name) :
    InterfaceUnder s d name := by
  obtain ⟨t, ht⟩ := h.interface
  obtain ⟨hname, ho⟩ := horigin ht
  exact ⟨t, ht, hname.symm, (declared_or_marker ho).imp_right And.left⟩

/-- The interface of connections is there with the other types of paging, or the schema declares it. -/
theorem marked_of_holds (h : d.types.Holds WireType.isInterface "Connection")
    (hs : ∀ i ∈ s.options.interfaces, i.name ≠ "Connection") : d.Marked := by
  obtain ⟨t, ht⟩ := h.interface
  obtain ⟨hname, ho⟩ := horigin ht
  obtain ⟨i, hi, fields, -, rfl⟩ | ⟨-, hm⟩ := declared_or_marker ho
  · exact absurd hname.symm (hs i hi)
  · exact hm

theorem around_of_held (h : Held d element) : Around s roots d element where
  edge := objectUnder_of_holds horigin h.edge
  node := objectUnder_of_holds horigin h.node
  connection := interfaceUnder_of_holds horigin h.connection
  shared hs := by
    have hm := marked_of_holds horigin h.connection hs
    exact ⟨objectUnder_of_holds horigin hm.pageInfo, interfaceUnder_of_holds horigin hm.node,
      interfaceUnder_of_holds horigin hm.edge⟩

end

/-! Fields that answer pages. -/

theorem outputRef?_stripOptional (t : HostType) : s.outputRef? t.stripOptional = s.outputRef? t := by
  induction t with
  | optional inner ih => exact ih
  | _ => rfl

theorem stripOptional_of_binding {f : Field} {binding : ConnectionBinding}
    (h : s.bindingOf f = some binding) : ∃ kind element, f.type.stripOptional = .connection kind element := by
  unfold Setting.bindingOf at h
  split at h
  · exact ⟨_, _, ‹_›⟩
  · cases h

/-- A field that answers pages refers to the connection type of its element. -/
theorem OutputForm.connection_ref {d' : Draft} {f : Field} {out : WireField} {kind : String}
    {element : HostType} (h : OutputForm s d d' f out) (hc : f.type.stripOptional = .connection kind element) :
    ∃ r, Build.elementRecord? s element = some r ∧ out.type.base = r.name ++ "Connection" := by
  obtain ⟨ref, href, hout⟩ := h.type
  rw [← outputRef?_stripOptional, hc] at href
  obtain ⟨r, hr, rfl⟩ := Option.map_eq_some_iff.mp href
  refine ⟨r, hr, ?_⟩
  rw [hout]
  split <;> rfl

/-! The generated types have no fields of their own that answer pages. -/

theorem plain_of_markerType {id string boolean : TypeRef} {t : WireType} {fields : List WireField}
    (ht : t ∈ Build.markerTypes s id string boolean) (hfields : t.fields? = some fields) :
    ∀ f ∈ fields, f.connection = none := by
  simp only [Build.markerTypes, List.mem_cons, List.not_mem_nil, or_false] at ht
  rcases ht with rfl | rfl | rfl | rfl <;> cases hfields <;> simp [WireField.plain, Setting.field]

theorem plain_of_edgeType (r : Record) (cursor : TypeRef) :
    ∀ f ∈ (Build.edgeType r cursor).fields, f.connection = none := by
  simp [Build.edgeType, WireField.plain]

theorem plain_of_connectionHead (r : Record) : ∀ f ∈ Build.connectionHead s r, f.connection = none := by
  simp [Build.connectionHead, WireField.plain, Setting.field]

/-- A field that answers pages is one that the schema declares. -/
theorem declaration_of_binding {t : WireType} {fields : List WireField} {out : WireField}
    {binding : ConnectionBinding} (h : Origin s roots {} d t) (hfields : t.fields? = some fields)
    (hout : out ∈ fields) (hb : out.connection = some binding) :
    ∃ f, s.DeclaresField roots f ∧ FieldForm s {} d f out := by
  have hplain {shown : List WireField} (hm : out ∈ shown) (hn : ∀ f ∈ shown, f.connection = none) : False :=
    Option.some_ne_none _ (hb.symm.trans (hn out hm))
  have hknown {r : Record} (hr : r ∈ s.knownRecords) : r ∈ s.declared roots :=
    Build.declared_of_known hr
  cases h with
  | scalar _ => cases hfields
  | enum _ => cases hfields
  | inputObject _ _ _ => cases hfields
  | marker _ _ _ ht _ => exact (hplain hout (plain_of_markerType ht hfields)).elim
  | edge _ _ =>
    cases hfields
    exact (hplain hout (plain_of_edgeType _ _)).elim
  | record hr hf =>
    cases hfields
    obtain ⟨f, hm, hform⟩ := hf.declaration_of_mem hout
    exact ⟨f, .inl ⟨_, hr, hm⟩, hform⟩
  | interface hr hf =>
    cases hfields
    obtain ⟨f, hm, hform⟩ := hf.declaration_of_mem hout
    exact ⟨f, .inl ⟨_, hknown (by simp [Setting.knownRecords, hr]), hm⟩, hform⟩
  | node hr hf =>
    cases hfields
    obtain ⟨f, hm, hform⟩ := hf.declaration_of_mem hout
    exact ⟨f, .inl ⟨_, hknown hr, hm⟩, hform⟩
  | @connection kind r extra _ hf _ _ _ =>
    cases hfields
    rcases List.mem_append.mp hout with hhead | hextra
    · exact (hplain hhead (plain_of_connectionHead r)).elim
    · obtain ⟨f, hm, hform⟩ := hf.declaration_of_mem hextra
      exact ⟨f, .inr ⟨kind, hm⟩, hform⟩

end

namespace Model

variable {s : Setting} {roots : RootRecords} {m : Model}

/-- A field that answers pages refers to the connection type of its element. Unless a scalar of paging has
its name, that is an object type of the schema's own making, or the generated one with all around it. -/
theorem pages_of_build (h : build s roots = .ok m) {t : WireType} {fields : List WireField} {out : WireField}
    {binding : ConnectionBinding} (ht : t ∈ m.types.values) (hfields : t.fields? = some fields)
    (hout : out ∈ fields) (hb : out.connection = some binding) :
    ∃ d f kind element r, d.types = m.types ∧ s.DeclaresField roots f ∧ OutputForm s {} d f out ∧
      f.type.stripOptional = .connection kind element ∧ Build.elementRecord? s element = some r ∧
      out.type.base = r.name ++ "Connection" ∧ (s.Undisplaced (r.name ++ "Connection") →
        ∃ c, m.types.get? (r.name ++ "Connection") = some (.object c) ∧ (DeclaredObject s roots d c ∨
          ConnectionContent s d r.name c ∧ Around s roots d r.name)) := by
  obtain ⟨d, hd, hdistinct, horigin⟩ := origins_of_build h
  have horigin' : ∀ {name t}, d.types.get? name = some t → name = t.name ∧ Origin s roots {} d t :=
    hd ▸ horigin
  obtain ⟨name, hname⟩ := Registry.exists_of_mem_values hdistinct ht
  obtain ⟨f, hdeclared, hform⟩ := declaration_of_binding (horigin hname).2 hfields hout hb
  obtain ⟨kind, element, hc⟩ := stripOptional_of_binding (hform.connection.symm.trans hb)
  obtain ⟨r, hr, hbase⟩ := hform.toOutputForm.connection_ref hc
  refine ⟨d, f, kind, element, r, hd, hdeclared, hform.toOutputForm, hc, hr, hbase, fun hu => ?_⟩
  obtain ⟨c, hget⟩ := (hform.registered hc hr hu).object
  have hlast : d.types.get? (r.name ++ Part.connection.last) = some (.object c) := hget
  refine ⟨c, hd ▸ hget, (content_under horigin' hlast).imp_right fun ⟨hcontent, hheld⟩ => ?_⟩
  exact ⟨hcontent, around_of_held horigin' (hheld rfl)⟩

theorem pages_bookshop : ∃ m d c, build (bookshop []) shopRoots = .ok m ∧ d.types = m.types ∧
    m.types.get? "BookConnection" = some (.object c) ∧
    (DeclaredObject (bookshop []) shopRoots d c ∨
      ConnectionContent (bookshop []) d "Book" c ∧ Around (bookshop []) shopRoots d "Book") := by
  obtain ⟨m, q, out, binding, hm, hq, hout, hbase, hb⟩ : ∃ m q out binding,
      build (bookshop []) shopRoots = .ok m ∧ m.types.get? "Query" = some (.object q) ∧ out ∈ q.fields ∧
        out.type.base = "Book" ++ "Connection" ∧ out.connection = some binding :=
    ⟨_, _, _, _, rfl, rfl, List.mem_cons_self, rfl, rfl⟩
  obtain ⟨d, f, kind, element, r, hd, -, -, -, -, hname, hpages⟩ :=
    pages_of_build hm (Registry.mem_values_of_get? hq) rfl hout hb
  have hr : r.name = "Book" := append_inj_left (hname.symm.trans hbase)
  obtain ⟨c, hc, hcontent⟩ := hpages (by rw [hr]; unfold Setting.Undisplaced; decide)
  rw [hr] at hc hcontent
  exact ⟨m, d, c, hm, hd, hc, hcontent⟩

/-- The bookshop with a record of its own under the name of the type of page information. -/
def tallyShop : Setting :=
  { bookshop [] with options :=
      { queryTypes := [{ name := "PageInfo", fields := [{ name := "total", type := .scalar "i64" }] }] } }

/-- Its pages of books refer to that record. -/
theorem pageInfo_tallyShop : ∃ m q out t, build tallyShop shopRoots = .ok m ∧
    m.types.get? "Query" = some (.object q) ∧ out ∈ q.fields ∧ out.connection.isSome ∧
    m.types.get? "PageInfo" = some (.object t) ∧ ¬ PageInfoContent tallyShop t := by
  refine ⟨_, _, _, _, rfl, rfl, List.mem_cons_self, rfl, rfl, ?_⟩
  rintro ⟨string, boolean, -, -, hfields⟩
  exact absurd (congrArg List.length hfields) (by simp)

end Model

end RecordGraph
