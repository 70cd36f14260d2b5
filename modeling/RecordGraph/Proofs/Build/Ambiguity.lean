import RecordGraph.Proofs.Build.Origin
/-! When names on the wire are ambiguous. Fields of a record, of an interface and of an input are checked
against each other as they are collected, and paging adds only arguments that a field does not have. Two
paths check nothing: the extra fields of a connection kind are put behind the fields of every connection as
they are, and the declared arguments of a field are taken as they come. A built model is ambiguous exactly
if one of the two lets a name through. -/

namespace RecordGraph

/-- No two arguments of a field have one name. -/
def WireField.Unambiguous (f : WireField) : Prop := (f.arguments.map WireArgument.name).Nodup

/-- No two fields of a type have one name, and none is ambiguous. -/
def WireType.Unambiguous : WireType → Prop
  | .scalar _ | .enum _ => True
  | .object t => (t.fields.map WireField.name).Nodup ∧ ∀ f ∈ t.fields, f.Unambiguous
  | .interface t => (t.fields.map WireField.name).Nodup ∧ ∀ f ∈ t.fields, f.Unambiguous
  | .inputObject t => (t.fields.map InputField.name).Nodup

instance (f : WireField) : Decidable f.Unambiguous := inferInstanceAs (Decidable (List.Nodup _))

instance (t : WireType) : Decidable t.Unambiguous :=
  match t with
  | .scalar _ | .enum _ => .isTrue trivial
  | .object _ | .interface _ => inferInstanceAs (Decidable (_ ∧ _))
  | .inputObject _ => inferInstanceAs (Decidable (List.Nodup _))

namespace Model

def Unambiguous (m : Model) : Prop := ∀ t ∈ m.types.values, t.Unambiguous

instance (m : Model) : Decidable m.Unambiguous := inferInstanceAs (Decidable (∀ t ∈ m.types.values, _))

/-- A name that no check looked at is there twice. -/
inductive Clash (s : Setting) (m : Model) : Prop
  /-- An extra field of a connection kind has the name of a field that every connection has. -/
  | extra {d : Draft} {kind : String} {r : Record} {fields : List WireField} {f : Field}
      (hd : d.types = m.types)
      (ht : Build.connectionType s kind r (Build.connectionHead s r ++ fields) ∈ m.types.values)
      (hf : FieldForms s {} d (Build.kindOf s kind).fields fields)
      (hm : f ∈ (Build.kindOf s kind).fields.filter Field.inOutput)
      (hname : s.wireName f.sourceName ∈ ["edges", s.wireName "page_info"])
  /-- Two declared arguments of a field have one name on the wire. -/
  | arguments {d : Draft} {t : WireType} {fields : List WireField} {out : WireField} {f : Field}
      (hd : d.types = m.types) (ht : t ∈ m.types.values) (hfields : t.fields? = some fields)
      (hout : out ∈ fields) (hf : FieldForm s {} d f out)
      (hdup : ¬ (f.arguments.map fun a => s.wireName a.name).Nodup)

end Model

/-! Arguments. -/

section
variable {s : Setting} {d d' : Draft}

theorem names_of_argumentForms {as : List Argument} {out : List WireArgument}
    (h : List.Forall₂ (ArgumentForm s d d') as out) :
    out.map WireArgument.name = as.map fun a => s.wireName a.name := by
  induction h with
  | nil => rfl
  | cons ha _ ih => rw [List.map_cons, List.map_cons, ha.name, ih]

theorem names_of_pagingForms {ps : List (String × String × String)} {out : List WireArgument}
    (h : List.Forall₂ (PagingForm s) ps out) : out.map WireArgument.name = ps.map Prod.fst := by
  induction h with
  | nil => rfl
  | cons ha _ ih => rw [List.map_cons, List.map_cons, ha.name, ih]

/-- The paging arguments of a field have names of their own. -/
theorem pagingOf_names (f : Field) (declared : List WireArgument) :
    ((Setting.pagingOf f declared).map Prod.fst).Nodup ∧
      ∀ a ∈ declared, a.name ∉ (Setting.pagingOf f declared).map Prod.fst := by
  unfold Setting.pagingOf
  split
  · refine ⟨Build.nodup_pagingArguments.sublist (List.filter_sublist.map _), fun a ha hm => ?_⟩
    obtain ⟨p, hp, hname⟩ := List.mem_map.mp hm
    have hall := List.all_eq_true.mp (List.mem_filter.mp hp).2 a ha
    exact absurd hname.symm (by simpa using hall)
  · exact ⟨List.nodup_nil, fun _ _ => List.not_mem_nil⟩

/-- A field is ambiguous exactly if two of its declared arguments have one name on the wire. -/
theorem OutputForm.unambiguous_iff_nodup {f : Field} {out : WireField} (h : OutputForm s d d' f out) :
    out.Unambiguous ↔ (f.arguments.map fun a => s.wireName a.name).Nodup := by
  obtain ⟨declared, paging, hout, hdeclared, hpaging⟩ := h.arguments
  obtain ⟨hnodup, hnew⟩ := pagingOf_names f declared
  rw [WireField.Unambiguous, hout, List.map_append, List.nodup_append', names_of_pagingForms hpaging,
    names_of_argumentForms hdeclared]
  refine ⟨And.left, fun hd => ⟨hd, hnodup, ?_⟩⟩
  rw [← names_of_argumentForms hdeclared]
  intro name hname
  obtain ⟨a, ha, rfl⟩ := List.mem_map.mp hname
  exact hnew a ha

end

/-! Fields. -/

section
variable {s : Setting} {d d' : Draft}

theorem names_of_fieldForms {fs : List Field} {out : List WireField}
    (h : List.Forall₂ (FieldForm s d d') fs out) :
    out.map WireField.name = fs.map fun f => s.wireName f.sourceName := by
  induction h with
  | nil => rfl
  | cons hf _ ih => rw [List.map_cons, List.map_cons, hf.name, ih]

theorem names_pageInfo (s : Setting) : (["has_next", "has_previous", "start_cursor", "end_cursor"].map
    s.wireName).Nodup := by
  unfold Setting.wireName Setting.casing
  cases s.options.camelCase <;> decide

theorem edges_ne_pageInfo (s : Setting) : "edges" ≠ s.wireName "page_info" := by
  unfold Setting.wireName Setting.casing
  cases s.options.camelCase <;> decide

end

namespace Build

variable {s : Setting} {r : Record} {t : WireType}

/-- The types that are the same for every element have distinct fields, none with arguments. -/
theorem unambiguous_markerTypes {id string boolean : TypeRef} :
    ∀ t ∈ markerTypes s id string boolean, t.Unambiguous := by
  have hnames := names_pageInfo s
  intro t ht
  simp only [markerTypes, List.mem_cons, List.not_mem_nil, or_false] at ht
  rcases ht with rfl | rfl | rfl | rfl
  · refine ⟨hnames, ?_⟩
    simp [WireField.Unambiguous, Setting.field]
  all_goals simp [WireType.Unambiguous, WireField.Unambiguous, WireField.plain, Setting.field]

theorem unambiguous_edgeType (r : Record) (cursor : TypeRef) :
    (WireType.object (edgeType r cursor)).Unambiguous := by
  simp [WireType.Unambiguous, WireField.Unambiguous, edgeType, WireField.plain]

theorem names_connectionHead (s : Setting) (r : Record) :
    (connectionHead s r).map WireField.name = ["edges", s.wireName "page_info"] := rfl

theorem unambiguous_connectionHead (s : Setting) (r : Record) : ∀ f ∈ connectionHead s r, f.Unambiguous := by
  simp [connectionHead, WireField.Unambiguous, WireField.plain, Setting.field]

end Build

namespace Model

variable {s : Setting} {roots : RootRecords} {m : Model} {d : Draft}

/-- Fields that stand for declared ones are unambiguous unless the arguments of one of them clash. -/
theorem unambiguous_of_forms {t : WireType} {declared : List Field} {shown fields : List WireField}
    (hno : ¬ m.Clash s) (hd : d.types = m.types) (ht : t ∈ m.types.values) (hfields : t.fields? = some shown)
    (hsub : fields ⊆ shown) (hf : FieldForms s {} d declared fields) : ∀ f ∈ fields, f.Unambiguous := by
  intro out hout
  obtain ⟨f, -, hform⟩ := hf.declaration_of_mem hout
  rw [hform.toOutputForm.unambiguous_iff_nodup]
  by_contra hdup
  exact hno (.arguments hd ht hfields (hsub hout) hform hdup)

theorem unambiguous_of_origin {t : WireType} (hno : ¬ m.Clash s) (hd : d.types = m.types)
    (ht : t ∈ m.types.values) (ho : Origin s roots {} d t) : t.Unambiguous := by
  cases ho with
  | scalar _ => trivial
  | enum _ => trivial
  | marker _ _ _ hmem _ => exact Build.unambiguous_markerTypes t hmem
  | record _ hf => exact ⟨hf.distinct, unambiguous_of_forms hno hd ht rfl (List.Subset.refl _) hf⟩
  | interface _ hf => exact ⟨hf.distinct, unambiguous_of_forms hno hd ht rfl (List.Subset.refl _) hf⟩
  | inputObject _ _ hnames => exact hnames
  | node _ hf => exact ⟨hf.distinct, unambiguous_of_forms hno hd ht rfl (List.Subset.refl _) hf⟩
  | edge _ _ => exact Build.unambiguous_edgeType _ _
  | @connection kind r fields _ hf _ _ _ =>
    have hextra : ∀ f ∈ fields, f.Unambiguous :=
      unambiguous_of_forms hno hd ht rfl (List.subset_append_right _ _) hf
    refine ⟨?_, List.forall_mem_append.mpr ⟨Build.unambiguous_connectionHead s r, hextra⟩⟩
    rw [List.map_append, List.nodup_append', Build.names_connectionHead]
    refine ⟨by simpa using edges_ne_pageInfo s, hf.distinct, fun name hhead hname => ?_⟩
    rw [names_of_fieldForms hf.forms] at hname
    obtain ⟨f, hm, rfl⟩ := List.mem_map.mp hname
    exact hno (.extra hd ht hf hm hhead)

theorem ambiguous_of_clash (h : m.Clash s) : ¬ m.Unambiguous := by
  intro hu
  cases h with
  | extra hd ht hf hm hname =>
    obtain ⟨hnodup, -⟩ := hu _ ht
    rw [List.map_append, List.nodup_append', Build.names_connectionHead] at hnodup
    refine hnodup.2.2 hname ?_
    rw [names_of_fieldForms hf.forms]
    exact List.mem_map_of_mem hm
  | @arguments d t fields out f hd ht hfields hout hf hdup =>
    refine hdup (hf.toOutputForm.unambiguous_iff_nodup.mp ?_)
    have ht' := hu t ht
    cases t with
    | object t =>
      cases hfields
      exact ht'.2 out hout
    | interface t =>
      cases hfields
      exact ht'.2 out hout
    | _ => cases hfields

/-- A built model is unambiguous unless an extra field of a connection kind has the name of a field that
every connection has, or two declared arguments of one field have one name. -/
theorem unambiguous_iff (h : build s roots = .ok m) : m.Unambiguous ↔ ¬ m.Clash s := by
  refine ⟨fun hu hc => ambiguous_of_clash hc hu, fun hno t ht => ?_⟩
  obtain ⟨d, hd, hdistinct, horigin⟩ := origins_of_build h
  obtain ⟨name, hname⟩ := Registry.exists_of_mem_values hdistinct ht
  exact unambiguous_of_origin hno hd ht (horigin hname).2

theorem unambiguous_bookshop : ∃ m, build (bookshop []) shopRoots = .ok m ∧ m.Unambiguous ∧
    ¬ m.Clash (bookshop []) := by
  obtain ⟨m, hm, hu⟩ : ∃ m, build (bookshop []) shopRoots = .ok m ∧ m.Unambiguous :=
    ⟨_, rfl, by decide⟩
  exact ⟨m, hm, hu, (unambiguous_iff hm).mp hu⟩

/-- The bookshop with a connection kind that counts its edges under the name of the edges. -/
def countedShop : Setting :=
  { bookshop [] with catalogue := { (bookshop []).catalogue with
      connections := [("Counted", { fields := [{ name := "edges", type := .scalar "i64" }] })] } }

/-- A root that answers such pages of books. -/
def countedRoots : RootRecords :=
  { query := { name := "Shop", fields := [{ name := "books", type := .connection "Counted" (.record "Book") }] } }

theorem ambiguous_countedShop : ∃ m, build countedShop countedRoots = .ok m ∧ ¬ m.Unambiguous :=
  ⟨_, rfl, by decide⟩

end Model

end RecordGraph
