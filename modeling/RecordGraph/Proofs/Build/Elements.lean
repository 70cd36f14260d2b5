import RecordGraph.Proofs.Build.Roots
/-! What a field that answers pages says of its elements. Its type is named after the element record, which
is found below any number of optionals; the name that its resolver is told is that of the element as it is
written, where an optional hides the record. The two agree unless an optional is around the element. -/

namespace RecordGraph

namespace Build

variable {s : Setting} {element : HostType} {r : Record}

/-- An element without an optional around it is named like its record. -/
theorem name_of_elementRecord? (h : elementRecord? s element = some r) (ho : element.isOptional = false) :
    element.name s.catalogue = r.name := by
  unfold elementRecord? at h
  cases element with
  | record key =>
    simp only [HostType.stripOptional] at h
    rw [HostType.name, h]
    rfl
  | named name =>
    rw [HostType.name]
    exact (Setting.name_of_record? h).symm
  | optional inner => exact absurd ho.symm Bool.false_ne_true
  | _ => cases h

/-- An optional shows as what it is, not as what it holds. -/
theorem name_of_isOptional (ho : element.isOptional = true) : element.name s.catalogue = "Optional" := by
  cases element with
  | optional inner => rfl
  | _ => exact absurd ho Bool.false_ne_true

end Build

namespace Model

/-- A field of a model that answers pages of a record, as its declaration has it. -/
structure AnswersPages (m : Model) (s : Setting) (roots : RootRecords) (out : WireField) (f : Field)
    (kind : String) (element : HostType) (r : Record) : Prop where
  shown : ∃ t ∈ m.types.values, ∃ fields, t.fields? = some fields ∧ out ∈ fields
  declared : s.DeclaresField roots f
  form : OutputForm s {} m.draft f out
  type : f.type.stripOptional = .connection kind element
  record : Build.elementRecord? s element = some r

/-- Each field with a binding has a declaration for which the binding tells the name of the element record,
and the type of the field starts with that name. -/
def ElementsNamed (m : Model) (s : Setting) (roots : RootRecords) : Prop :=
  ∀ t ∈ m.types.values, ∀ fields, t.fields? = some fields → ∀ out ∈ fields, ∀ binding,
    out.connection = some binding → ∃ f kind element r, m.AnswersPages s roots out f kind element r ∧
      binding.elementType = r.name ∧ out.type.base = binding.elementType ++ "Connection"

/-- Some field answers pages of optional elements, whose record is not itself called so. -/
def ElementHidden (m : Model) (s : Setting) (roots : RootRecords) : Prop :=
  ∃ out f kind element r, m.AnswersPages s roots out f kind element r ∧ element.isOptional = true ∧
    r.name ≠ "Optional"

section
variable {m : Model} {s : Setting} {roots : RootRecords} {out : WireField} {f : Field} {kind : String}
  {element : HostType} {r : Record}

theorem AnswersPages.base_eq (h : m.AnswersPages s roots out f kind element r) :
    out.type.base = r.name ++ "Connection" := by
  obtain ⟨r', hr', hbase⟩ := h.form.connection_ref h.type
  cases h.record.symm.trans hr'
  exact hbase

theorem AnswersPages.connection_eq (h : m.AnswersPages s roots out f kind element r) : out.connection =
    some ⟨element.name s.catalogue, (Entries.get? s.catalogue.connections kind).bind ConnectionKind.resolver⟩ := by
  rw [h.form.connection, Setting.bindingOf, h.type]

/-- Every field with a binding has a declaration that answers pages. -/
theorem exists_answersPages (h : build s roots = .ok m) {t : WireType} {fields : List WireField}
    {binding : ConnectionBinding} (ht : t ∈ m.types.values) (hfields : t.fields? = some fields)
    (hout : out ∈ fields) (hb : out.connection = some binding) :
    ∃ f kind element r, m.AnswersPages s roots out f kind element r := by
  obtain ⟨d, hd, hdistinct, horigin⟩ := origins_of_build h
  obtain ⟨name, hname⟩ := Registry.exists_of_mem_values hdistinct ht
  obtain ⟨f, hdeclared, hform⟩ := declaration_of_binding (horigin hname).2 hfields hout hb
  obtain ⟨kind, element, hc⟩ := stripOptional_of_binding (hform.connection.symm.trans hb)
  obtain ⟨r, hr, -⟩ := hform.toOutputForm.connection_ref hc
  have hkeeps : d.types.Keeps m.draft.types := by
    rw [hd]
    exact .refl m.types
  exact ⟨f, kind, element, r, ⟨t, ht, fields, hfields, hout⟩, hdeclared,
    hform.toOutputForm.widen (.refl _) hkeeps, hc, hr⟩

/-- In a built model bindings tell the names of element records, exactly if no optional hides one. -/
theorem elements_named_iff (h : build s roots = .ok m) :
    m.ElementsNamed s roots ↔ ¬ m.ElementHidden s roots := by
  constructor
  · rintro hnamed ⟨out, f, kind, element, r, hpages, ho, hne⟩
    obtain ⟨t, ht, fields, hfields, hout⟩ := hpages.shown
    obtain ⟨-, -, -, -, -, -, hbase⟩ := hnamed t ht fields hfields out hout _ hpages.connection_eq
    rw [Build.name_of_isOptional ho, hpages.base_eq] at hbase
    exact hne (append_inj_left hbase)
  · intro hno t ht fields hfields out hout binding hb
    obtain ⟨f, kind, element, r, hpages⟩ := exists_answersPages h ht hfields hout hb
    have hname : binding.elementType = r.name := by
      cases hb.symm.trans hpages.connection_eq
      cases ho : element.isOptional with
      | false => exact Build.name_of_elementRecord? hpages.record ho
      | true =>
        by_contra hne
        refine hno ⟨out, f, kind, element, r, hpages, ho, fun hr => hne ?_⟩
        exact (Build.name_of_isOptional ho).trans hr.symm
    refine ⟨f, kind, element, r, hpages, hname, ?_⟩
    rw [hpages.base_eq, hname]

end

/-- A root whose pages of books are written with elements that may be absent. -/
def maybeRoots : RootRecords :=
  { query := { name := "Shop"
               fields := [{ name := "books"
                            type := .connection "Connection" (.optional (.record "Book")) }] } }

theorem elements_bookshop : ∃ m, build (bookshop []) shopRoots = .ok m ∧
    m.ElementsNamed (bookshop []) shopRoots ∧ ¬ m.ElementHidden (bookshop []) shopRoots := by
  obtain ⟨m, hm⟩ : ∃ m, build (bookshop []) shopRoots = .ok m := ⟨_, rfl⟩
  have hno : ¬ m.ElementHidden (bookshop []) shopRoots := by
    rintro ⟨out, f, kind, element, r, hpages, ho, -⟩
    have htype : f.type = .scalar "ID" ∨ f.type = bookPages := by
      rcases hpages.declared with ⟨r, hr, hf⟩ | ⟨kind, hf⟩
      · simp only [Setting.declared, Setting.knownRecords, bookshop, shopRoots, List.map_cons, List.map_nil,
          List.nil_append, List.append_nil, List.cons_append, List.mem_cons, List.not_mem_nil, or_false,
          Option.toList_none] at hr
        rcases hr with rfl | rfl
        · exact .inl (by rw [List.mem_singleton.mp hf])
        · exact .inr (by rw [List.mem_singleton.mp hf])
      · exact absurd hf List.not_mem_nil
    have hc := hpages.type
    rcases htype with h | h
    · rw [h] at hc
      cases hc
    · rw [h] at hc
      cases hc
      exact absurd ho Bool.false_ne_true
  exact ⟨m, hm, (elements_named_iff hm).mpr hno, hno⟩

/-- The resolver of such pages is told that they are pages of an optional. -/
theorem hidden_maybeRoots : ∃ m, build (bookshop []) maybeRoots = .ok m ∧
    ¬ m.ElementsNamed (bookshop []) maybeRoots := by
  obtain ⟨m, q, out, binding, hm, hq, hout, hb, hbase, hname⟩ : ∃ m q out binding,
      build (bookshop []) maybeRoots = .ok m ∧ m.types.get? "Query" = some (.object q) ∧ out ∈ q.fields ∧
        out.connection = some binding ∧ out.type.base = "BookConnection" ∧ binding.elementType = "Optional" :=
    ⟨_, _, _, _, rfl, rfl, List.mem_cons_self, rfl, rfl, rfl⟩
  refine ⟨m, hm, fun hnamed => ?_⟩
  obtain ⟨-, -, -, -, -, -, heq⟩ :=
    hnamed _ (Registry.mem_values_of_get? hq) _ rfl out hout binding hb
  rw [hbase, hname] at heq
  exact absurd heq (by decide)

end Model

end RecordGraph
