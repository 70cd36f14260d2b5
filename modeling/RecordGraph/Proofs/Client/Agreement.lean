import RecordGraph.Client.Document
import RecordGraph.Resolve.Dispatch
import RecordGraph.Proofs.Client.Literal
import RecordGraph.Proofs.Client.Mirror
import RecordGraph.Proofs.Decode.Arguments
/-! Client and server agree on names. The client turns host names into names on the wire, the server finds fields
by their names on the wire and answers with the host names that it has kept. So a field is found under its host
name, and a value whose objects are keyed by host names is decoded with these keys at every depth, whatever the
wire names look like: they are never turned back. -/

namespace RecordGraph

namespace Model

/-- The fields of each type are told apart by their names. -/
def FieldsDistinct (m : Model) : Prop :=
  ∀ {name t fields}, m.type? name = some t → t.fields? = some fields → (fields.map WireField.name).Nodup

/-- An object of a value that stands for an input object. -/
inductive ObjectAt (m : Model) : TypeRef → Json → InputObjectType → List (String × Json) → Prop
  | here {name : String} {t : InputObjectType} {members : List (String × Json)}
      (ht : m.type? name = some (.inputObject t)) : ObjectAt m (.named name) (.object members) t members
  | nonNull {inner : TypeRef} {j : Json} {t : InputObjectType} {members : List (String × Json)}
      (h : ObjectAt m inner j t members) : ObjectAt m (.nonNull inner) j t members
  | item {inner : TypeRef} {items : List Json} {j : Json} {t : InputObjectType}
      {members : List (String × Json)} (hj : j ∈ items) (h : ObjectAt m inner j t members) :
      ObjectAt m (.list inner) (.array items) t members
  | single {inner : TypeRef} {j : Json} {t : InputObjectType} {members : List (String × Json)}
      (hj : ∀ items, j ≠ .array items) (h : ObjectAt m inner j t members) : ObjectAt m (.list inner) j t members
  | member {name : String} {u : InputObjectType} {around : List (String × Json)} {f : InputField} {j : Json}
      {t : InputObjectType} {members : List (String × Json)} (hu : m.type? name = some (.inputObject u))
      (hf : f ∈ u.fields) (hj : Entries.get? around f.hostName = some j) (h : ObjectAt m f.type j t members) :
      ObjectAt m (.named name) (.object around) t members

/-- The objects that stand for input objects have distinct keys, each the host name of a declared field. -/
def Keyed (m : Model) (type : TypeRef) (j : Json) : Prop :=
  ∀ {t members}, m.ObjectAt type j t members →
    (members.map Prod.fst).Nodup ∧ ∀ key ∈ members.map Prod.fst, ∃ f ∈ t.fields, f.hostName = key

mutual

/-- What the host is to have for a value of a type. -/
inductive Reads (m : Model) : TypeRef → Json → Value → Prop
  | null {type : TypeRef} : Reads m type .null .null
  | nonNull {inner : TypeRef} {j : Json} {v : Value} (h : Reads m inner j v) : Reads m (.nonNull inner) j v
  | list {inner : TypeRef} {items : List Json} {vs : List Value} (h : ItemsRead m inner items vs) :
      Reads m (.list inner) (.array items) (.list vs)
  /-- A single value stands for a list of one. -/
  | single {inner : TypeRef} {j : Json} {v : Value} (hnull : j ≠ .null) (hj : ∀ items, j ≠ .array items)
      (h : Reads m inner j v) : Reads m (.list inner) j (.list [v])
  | scalar {name : String} {t : ScalarType} {j : Json} {v : Value} (hnull : j ≠ .null)
      (ht : m.type? name = some (.scalar t)) (h : t.codec.parse (.ofJson j) = .ok v) :
      Reads m (.named name) j v
  /-- The same member of the enum. -/
  | enum {name member : String} {t : EnumType} (ht : m.type? name = some (.enum t)) (h : member ∈ t.members) :
      Reads m (.named name) (.string member) (.member name member)
  | mapping {name : String} {t : InputObjectType} {members : List (String × Json)}
      {fields : List (String × Value)} (ht : m.type? name = some (.inputObject t)) (hl : t.loader = none)
      (h : FieldsRead m members t.fields fields) : Reads m (.named name) (.object members) (.mapping fields)
  /-- A loader is handed the fields that the mapping would have. -/
  | loaded {name : String} {t : InputObjectType} {members : List (String × Json)}
      {fields : List (String × Value)} {loader : Loader} {v : Value}
      (ht : m.type? name = some (.inputObject t)) (hl : t.loader = some loader)
      (h : FieldsRead m members t.fields fields) (hv : loader fields = .ok v) :
      Reads m (.named name) (.object members) v

/-- The items of an array, one by one. -/
inductive ItemsRead (m : Model) : TypeRef → List Json → List Value → Prop
  | nil {inner : TypeRef} : ItemsRead m inner [] []
  | cons {inner : TypeRef} {j : Json} {v : Value} {items : List Json} {vs : List Value}
      (h : Reads m inner j v) (hrest : ItemsRead m inner items vs) : ItemsRead m inner (j :: items) (v :: vs)

/-- Under the host name of each declared field stands what is given for that name, else the declared default,
else nothing. -/
inductive FieldsRead (m : Model) :
    List (String × Json) → List InputField → List (String × Value) → Prop
  | nil {members : List (String × Json)} : FieldsRead m members [] []
  | given {members : List (String × Json)} {f : InputField} {rest : List InputField} {j : Json} {v : Value}
      {fields : List (String × Value)} (hj : Entries.get? members f.hostName = some j)
      (h : Reads m f.type j v) (hrest : FieldsRead m members rest fields) :
      FieldsRead m members (f :: rest) ((f.hostName, v) :: fields)
  | default {members : List (String × Json)} {f : InputField} {rest : List InputField} {w : WireValue}
      {v : Value} {fields : List (String × Value)} (hj : Entries.get? members f.hostName = none)
      (hw : f.default = some w) (hv : m.decode f.type w = .ok v) (hrest : FieldsRead m members rest fields) :
      FieldsRead m members (f :: rest) ((f.hostName, v) :: fields)
  | absent {members : List (String × Json)} {f : InputField} {rest : List InputField}
      {fields : List (String × Value)} (hj : Entries.get? members f.hostName = none) (hw : f.default = none)
      (hrest : FieldsRead m members rest fields) : FieldsRead m members (f :: rest) fields

end

end Model

/-! Names of fields. -/

namespace Build

variable {s : Setting} {roots : RootRecords} {d : Draft}

theorem named_of_markerType {id string boolean : TypeRef} {t : WireType} {fields : List WireField}
    (ht : t ∈ Build.markerTypes s id string boolean) (hfields : t.fields? = some fields) :
    ∀ f ∈ fields, f.name = s.casing.toWire f.hostName := by
  have hid : "id" = s.casing.toWire "id" := by cases s.casing <;> decide
  have hcursor : "cursor" = s.casing.toWire "cursor" := by cases s.casing <;> decide
  simp only [Build.markerTypes, List.mem_cons, List.not_mem_nil, or_false] at ht
  rcases ht with rfl | rfl | rfl | rfl <;> cases hfields <;>
    simp [WireField.plain, Setting.field, Setting.wireName, ← hid, ← hcursor]

theorem named_of_edgeType (r : Record) (cursor : TypeRef) :
    ∀ f ∈ (Build.edgeType r cursor).fields, f.name = s.casing.toWire f.hostName := by
  have hcursor : "cursor" = s.casing.toWire "cursor" := by cases s.casing <;> decide
  have hnode : "node" = s.casing.toWire "node" := by cases s.casing <;> decide
  simp [Build.edgeType, WireField.plain, ← hcursor, ← hnode]

theorem named_of_connectionHead (r : Record) :
    ∀ f ∈ Build.connectionHead s r, f.name = s.casing.toWire f.hostName := by
  have hedges : "edges" = s.casing.toWire "edges" := by cases s.casing <;> decide
  simp [Build.connectionHead, WireField.plain, Setting.field, Setting.wireName, ← hedges]

theorem wireName_of_fieldForms {declared : List Field} {fields : List WireField} {f : WireField}
    (h : FieldForms s {} d declared fields) (hf : f ∈ fields) : f.name = s.casing.toWire f.hostName := by
  obtain ⟨g, -, hform⟩ := h.declaration_of_mem hf
  rw [hform.name, hform.hostName]
  rfl

/-- Every field of every type is named by its host name. -/
theorem wireName_of_origin {t : WireType} {fields : List WireField} {f : WireField}
    (h : Origin s roots {} d t) (hfields : t.fields? = some fields) (hf : f ∈ fields) :
    f.name = s.casing.toWire f.hostName := by
  cases h with
  | scalar _ => cases hfields
  | enum _ => cases hfields
  | inputObject _ _ _ => cases hfields
  | marker _ _ _ ht _ => exact named_of_markerType ht hfields f hf
  | edge _ _ =>
    cases hfields
    exact named_of_edgeType _ _ f hf
  | record _ hforms | interface _ hforms | node _ hforms =>
    cases hfields
    exact wireName_of_fieldForms hforms hf
  | connection _ hforms _ _ _ =>
    cases hfields
    rcases List.mem_append.mp hf with hhead | hextra
    · exact named_of_connectionHead _ f hhead
    · exact wireName_of_fieldForms hforms hextra

end Build

namespace Model

variable {s : Setting} {roots : RootRecords} {m : Model}

theorem casing_of_build (h : build s roots = .ok m) : m.casing = s.casing := by
  unfold build at h
  split at h <;> cases h
  rfl

/-- The names of a built model follow its casing: those of its fields, and those of its input fields, which are
told apart by them. -/
theorem wireName_of_build (h : build s roots = .ok m) {name : String} {t : WireType} (ht : m.type? name = some t) :
    (∀ {fields}, t.fields? = some fields → ∀ f ∈ fields, f.name = m.casing.toWire f.hostName) ∧
    ∀ {object}, t = .inputObject object → (object.fields.map InputField.name).Nodup ∧
      ∀ f ∈ object.fields, f.name = m.casing.toWire f.hostName := by
  obtain ⟨d, -, -, horigin⟩ := origins_of_build h
  obtain ⟨-, ho⟩ := horigin ht
  rw [casing_of_build h]
  refine ⟨fun hfields f hf => Build.wireName_of_origin ho hfields hf, ?_⟩
  rintro object rfl
  cases ho with
  | marker _ _ _ hmem _ => simp [Build.markerTypes] at hmem
  | inputObject _ hf hd =>
    refine ⟨hd, fun f hfield => ?_⟩
    obtain ⟨_, -, hform⟩ := exists_of_mem_right hf hfield
    exact hform.name.trans (congrArg s.wireName hform.hostName.symm)

end Model

namespace Client

variable {m : Model} {d : Description}

/-! Output fields. -/

theorem find?_name {α : Type} {name : α → String} {as : List α} {a : α} (hn : (as.map name).Nodup)
    (ha : a ∈ as) : (as.find? fun b => name b == name a) = some a := by
  induction as with
  | nil => cases ha
  | cons b as ih =>
    rw [List.map_cons, List.nodup_cons] at hn
    rcases List.mem_cons.mp ha with rfl | ha
    · exact List.find?_cons_of_pos (beq_self_eq_true _)
    · have hne : name b ≠ name a := fun he => hn.1 (he ▸ List.mem_map_of_mem ha)
      rw [List.find?_cons_of_neg (by simpa using hne), ih hn.2 ha]

theorem exists_of_rel_some {α β : Type} {R : α → β → Prop} {o : Option α} {b : β}
    (h : Option.Rel R o (some b)) : ∃ a, o = some a ∧ R a b := by
  cases h with
  | some h => exact ⟨_, rfl, h⟩

/-- A field is written under the name by which the server finds it. -/
theorem field_agrees (hd : d.Mirrors m) {name : String} {t : WireType} {fields : List WireField} {f : WireField}
    (ht : m.type? name = some t) (hfields : t.fields? = some fields) (hn : (fields.map WireField.name).Nodup)
    (hf : f ∈ fields) (hname : f.name = m.casing.toWire f.hostName) : ∃ g : FieldDescription,
      (⟨d, m.casing⟩ : Writer).field name f.hostName = .ok (.mk g none [] []) ∧ g.Mirrors f ∧
      ∀ r : FieldRequest, r.parentType = name → r.wireName = g.name → m.requestedField r = .ok f := by
  obtain ⟨u, hu, hmirrors⟩ := hd ht
  have hfind : (fields.find? fun g => g.name == f.name) = some f := find?_name hn hf
  obtain ⟨g, hg, hgf⟩ := exists_of_rel_some (hfind ▸ hmirrors.fields hfields f.name)
  refine ⟨g, ?_, hgf, fun r hparent hwire => ?_⟩
  · rw [Writer.field, hu, ← hname]
    simp only [bind, Except.bind, hg]
    rfl
  · have hfound : m.field? r.parentType r.wireName = some f := by
      rw [hparent, hwire, hgf.name, Model.field?, ht]
      change t.fields?.bind _ = _
      rw [hfields]
      exact hfind
    rw [Model.requestedField, hfound]

/-! Input values, one layer of the type after the other. -/

variable {type : TypeRef} {shape : TypeShape} {j : Json} {w : WireValue} {v : Value}

theorem eq_null_of_conforms (hv : m.Conforms type .null v) : v = .null := by
  induction type with
  | nonNull inner ih =>
    cases hv with
    | null => rfl
    | nonNull hv => exact ih hv
  | list inner =>
    cases hv with
    | null => rfl
    | single hnull => exact absurd rfl hnull
  | named name =>
    cases hv with
    | null => rfl
    | scalar hnull => exact absurd rfl hnull
    | enum _ hw => exact absurd hw (by simp)

theorem eq_null_of_wrapperLiteral {name : String}
    {items : Option (Option TypeShape → Except ClientError (List WireValue))}
    {named : Option String → Except ClientError WireValue} (hs : shape.Mirrors type)
    (hw : wrapperLiteral name .null items named shape = .ok w) : w = .null := by
  induction hs with
  | nonNull _ ih =>
    rw [wrapperLiteral] at hw
    exact ih hw
  | list _ =>
    rw [wrapperLiteral_null (by decide)] at hw
    exact (Except.ok.inj hw).symm
  | named _ hnonNull =>
    rw [wrapperLiteral_null hnonNull] at hw
    exact (Except.ok.inj hw).symm

/-- The client looks through the wrappers of a type as the server does, and leaves the rest to what is written for
a named type. -/
theorem reads_of_wrapperLiteral {name : String}
    {items : Option (Option TypeShape → Except ClientError (List WireValue))}
    {named : Option String → Except ClientError WireValue}
    (hnone : items = none → ∀ js, j ≠ .array js)
    (hsome : ∀ {f}, items = some f → ∃ js, j = .array js ∧ ∀ {inner : TypeRef} {shape ws vs},
      shape.Mirrors inner → m.Keyed (.list inner) j → f (some shape) = .ok ws →
        m.ItemsConform inner ws vs → m.ItemsRead inner js vs)
    (hnamed : ∀ {base w v}, j ≠ .null → m.Keyed (.named base) j → named (some base) = .ok w →
      m.Conforms (.named base) w v → m.Reads (.named base) j v)
    (hs : shape.Mirrors type) (hk : m.Keyed type j) (hw : wrapperLiteral name j items named shape = .ok w)
    (hv : m.Conforms type w v) : m.Reads type j v := by
  by_cases hj : j = .null
  · subst hj
    obtain rfl := eq_null_of_wrapperLiteral hs hw
    rw [eq_null_of_conforms hv]
    exact .null
  induction hs generalizing w v with
  | nonNull hs ih =>
    rw [wrapperLiteral] at hw
    refine .nonNull (ih (fun h => hk (.nonNull h)) hw ?_)
    cases hv with
    | null => exact .null
    | nonNull hv => exact hv
  | @list _ inner element hs ih =>
    rw [wrapperLiteral_list hj] at hw
    cases items with
    | some f =>
      obtain ⟨js, rfl, hread⟩ := hsome rfl
      obtain ⟨ws, hws, rfl⟩ := map_eq_ok.mp hw
      cases hv with
      | list hvs => exact .list (hread hs hk hws hvs)
      | single _ hno => exact absurd rfl (hno ws)
    | none =>
      obtain ⟨one, hone, rfl⟩ := map_eq_ok.mp hw
      cases hv with
      | list hvs =>
        cases hvs with
        | cons hv hrest =>
        cases hrest
        exact .single hj (hnone rfl) (ih (fun h => hk (.single (hnone rfl) h)) hone hv)
      | single _ hno => exact absurd rfl (hno [one])
  | named hlist hnonNull =>
    rw [wrapperLiteral_named hj hlist hnonNull] at hw
    exact hnamed hj hk hw hv

/-- A value of a named type, if its objects are read. -/
theorem reads_of_namedLiteral (hd : d.Mirrors m) {name base : String}
    {object : TypeDescription → Except ClientError WireValue}
    (hobject : ∀ {t u w v}, m.type? base = some (.inputObject t) → u.Mirrors (.inputObject t) →
      object u = .ok w → m.Conforms (.named base) w v → m.Reads (.named base) j v)
    (hnull : ∀ {u}, object u ≠ .ok .null) (hj : j ≠ .null)
    (hw : namedLiteral d name j object (some base) = .ok w) (hv : m.Conforms (.named base) w v) :
    m.Reads (.named base) j v := by
  obtain ⟨u, hu, hw⟩ := cases_of_namedLiteral hw
  have hmirrors {t : WireType} (ht : m.type? base = some t) : u.Mirrors t := by
    obtain ⟨u', hu', hmirrors⟩ := hd ht
    cases hu.symm.trans hu'
    exact hmirrors
  have hmapping {t : InputObjectType} (ht : m.type? base = some (.inputObject t)) : object u = .ok w := by
    simpa [(hmirrors ht).kind, kindOf] using hw
  -- Every type decodes null, but null is not written for anything else.
  cases hv with
  | null =>
    obtain ⟨-, hw⟩ | ⟨-, hw⟩ | ⟨-, hw⟩ := hw
    · obtain ⟨_, -, -, hmember⟩ := member_of_memberLiteral hw
      cases hmember
    · exact absurd hw hnull
    · cases j with
      | null => exact absurd rfl hj
      | _ => cases hw
  | scalar _ ht hparse =>
    obtain rfl : w = .ofJson j := by simpa [(hmirrors ht).kind, kindOf] using hw
    exact .scalar hj ht hparse
  | enum ht hmember h =>
    have hw : memberLiteral u name j = .ok w := by simpa [(hmirrors ht).kind, kindOf] using hw
    obtain ⟨given, rfl, -, rfl⟩ := member_of_memberLiteral hw
    obtain ⟨⟨⟩⟩ | ⟨⟨⟩⟩ := hmember
    exact .enum ht h
  | mapping ht hl h => exact hobject ht (hmirrors ht) (hmapping ht) (.mapping ht hl h)
  | loaded ht hl h hload => exact hobject ht (hmirrors ht) (hmapping ht) (.loaded ht hl h hload)

/-- A value that is no object. -/
theorem reads_of_noObject (hd : d.Mirrors m) {name base : String} (hj : j ≠ .null)
    (hw : namedLiteral d name j (noObject name j) (some base) = .ok w) (hv : m.Conforms (.named base) w v) :
    m.Reads (.named base) j v := by
  refine reads_of_namedLiteral hd ?_ ?_ hj hw hv
  · intro t u w v _ _ h
    cases h
  · intro u h
    cases h

/-! Members of objects. -/

section
variable {t : InputObjectType} {u : TypeDescription} {c : Casing} {members : List (String × Json)}
  {entries : Entries WireValue}

/-- Host names of declared fields have different names on the wire. -/
theorem nodup_toWire (hn : (t.fields.map InputField.name).Nodup)
    (hname : ∀ f ∈ t.fields, f.name = c.toWire f.hostName) (hnodup : (members.map Prod.fst).Nodup)
    (hkeys : ∀ key ∈ members.map Prod.fst, ∃ f ∈ t.fields, f.hostName = key) :
    (members.map fun p => c.toWire p.1).Nodup := by
  have hinj : ∀ key ∈ members.map Prod.fst, ∀ other ∈ members.map Prod.fst,
      c.toWire key = c.toWire other → key = other := by
    intro key hkey other hother he
    obtain ⟨f, hf, rfl⟩ := hkeys key hkey
    obtain ⟨g, hg, rfl⟩ := hkeys other hother
    rw [← hname f hf, ← hname g hg] at he
    rw [List.inj_on_of_nodup_map hn hf hg he]
  simpa only [List.map_map, Function.comp_def] using hnodup.map_on hinj

/-- What is written for a declared field is what is given under its host name. -/
theorem written_iff (hu : u.Mirrors (.inputObject t)) (hn : (t.fields.map InputField.name).Nodup)
    (hname : ∀ f ∈ t.fields, f.name = c.toWire f.hostName) (hnodup : (members.map Prod.fst).Nodup)
    (hkeys : ∀ key ∈ members.map Prod.fst, ∃ f ∈ t.fields, f.hostName = key)
    (hw : fieldLiterals d c u [] members = .ok entries) {f : InputField} (hf : f ∈ t.fields) :
    Entries.get? members f.hostName = none ∧ Entries.get? entries f.name = none ∨
      ∃ j shape w, (f.hostName, j) ∈ members ∧ Entries.get? members f.hostName = some j ∧
        shape.Mirrors f.type ∧ literal d c f.name j shape = .ok w ∧ Entries.get? entries f.name = some w := by
  cases hget : Entries.get? members f.hostName with
  | none =>
    refine .inl ⟨rfl, get?_fieldLiterals_of_ne hw fun p hp he => ?_⟩
    obtain ⟨g, hg, hgp⟩ := hkeys p.1 (List.mem_map_of_mem hp)
    -- Whatever is written under the name of `f` is given under its host name, as no two fields share a name.
    rw [← hgp, ← hname g hg] at he
    rw [List.inj_on_of_nodup_map hn hg hf he] at hgp
    exact Entries.get?_eq_none.mp hget (hgp ▸ List.mem_map_of_mem hp)
  | some j =>
    have hmem := Entries.mem_of_get? hget
    obtain ⟨field, w, hfield, hliteral, hwritten⟩ :=
      get?_fieldLiterals_of_mem hw (nodup_toWire hn hname hnodup hkeys) hmem
    rw [← hname f hf] at hfield hliteral hwritten
    obtain ⟨i, hi, hmirrors⟩ := exists_of_rel_some (find?_name hn hf ▸ hu.inputFields rfl f.name)
    cases hi.symm.trans hfield
    exact .inr ⟨j, _, w, hmem, rfl, hmirrors.type, hliteral, hwritten⟩

/-- The fields of an input object, if what is given for them is read. -/
theorem fieldsRead_of_written {declared : List InputField} {fields : List (String × Value)}
    (hwritten : ∀ f ∈ declared, Entries.get? members f.hostName = none ∧ Entries.get? entries f.name = none ∨
      ∃ j w, Entries.get? members f.hostName = some j ∧ Entries.get? entries f.name = some w ∧
        ∀ {v}, m.Conforms f.type w v → m.Reads f.type j v)
    (hm : m.Distinct) (h : m.FieldsConform entries declared fields) : m.FieldsRead members declared fields := by
  induction declared generalizing fields with
  | nil =>
    cases h
    exact .nil
  | cons f declared ih =>
    rw [List.forall_mem_cons] at hwritten
    obtain ⟨hfield, hwritten⟩ := hwritten
    cases h with
    | given hw hv hrest =>
      obtain ⟨hj, hnone⟩ | ⟨j, w', hj, hw', hread⟩ := hfield
      · rw [InputField.given?, hnone] at hw
        exact .default hj hw ((Model.decode_eq_ok hm).mpr hv.shaped) (ih hwritten hrest)
      · rw [InputField.given?, hw'] at hw
        cases hw
        exact .given hj (hread hv) (ih hwritten hrest)
    | absent hw hrest =>
      obtain ⟨hj, hnone⟩ | ⟨j, w', hj, hw', hread⟩ := hfield
      · rw [InputField.given?, hnone] at hw
        exact .absent hj hw (ih hwritten hrest)
      · rw [InputField.given?, hw'] at hw
        cases hw

end

theorem itemsRead_of_forall₂ {inner : TypeRef} {items : List Json} {ws : List WireValue} {vs : List Value}
    (hread : List.Forall₂ (fun j w => ∀ {v}, m.Conforms inner w v → m.Reads inner j v) items ws)
    (h : m.ItemsConform inner ws vs) : m.ItemsRead inner items vs := by
  induction hread generalizing vs with
  | nil =>
    cases h
    exact .nil
  | cons hread _ ih =>
    cases h with
    | cons hv hrest => exact .cons (hread hv) (ih hrest)

/-- A value that the client writes and the server decodes is read as it was given. -/
theorem reads_of_literal (hm : m.Distinct) (hd : d.Mirrors m)
    (hnames : ∀ {name t}, m.type? name = some (.inputObject t) → (t.fields.map InputField.name).Nodup ∧
      ∀ f ∈ t.fields, f.name = m.casing.toWire f.hostName) (j : Json) :
    ∀ {name type shape w v}, shape.Mirrors type → m.Keyed type j → literal d m.casing name j shape = .ok w →
      m.Conforms type w v → m.Reads type j v := by
  induction j using Json.induction_holds with
  | array js ih =>
    intro name type shape w v hs hk hw hv
    rw [literal] at hw
    refine reads_of_wrapperLiteral (fun h => by cases h) ?_ (fun hj _ => reads_of_noObject hd hj) hs hk hw hv
    rintro f ⟨⟩
    refine ⟨js, rfl, fun {inner shape ws vs} hs hk hws hvs => itemsRead_of_forall₂ ?_ hvs⟩
    have hitems := List.forall₂_iff_get.mp (itemLiterals_eq_ok.mp hws)
    refine List.forall₂_iff_get.mpr ⟨hitems.1, fun i hi hi' => ?_⟩
    have hmem := List.get_mem js ⟨i, hi⟩
    exact fun {v} hv => ih _ hmem hs (fun h => hk (.item hmem h)) (hitems.2 i hi hi') hv
  | object members ih =>
    intro name type shape w v hs hk hw hv
    rw [literal] at hw
    refine reads_of_wrapperLiteral (fun _ _ h => by cases h) (fun h => by cases h) ?_ hs hk hw hv
    intro base w v hj hk hw hv
    refine reads_of_namedLiteral hd ?_ ?_ hj hw hv
    · intro t u w v ht hu hw hv
      obtain ⟨entries, hentries, rfl⟩ := map_eq_ok.mp hw
      obtain ⟨hnodup, hkeys⟩ := hk (.here ht)
      obtain ⟨hn, hname⟩ := hnames ht
      -- The server looks for a field by its name, and the client wrote there what it has for the host name.
      have hfields {fields : List (String × Value)} (h : m.FieldsConform entries t.fields fields) :
          m.FieldsRead members t.fields fields := by
        refine fieldsRead_of_written (fun f hf => ?_) hm h
        refine (written_iff hu hn hname hnodup hkeys hentries hf).imp_right ?_
        rintro ⟨j, shape, w, hmem, hj, hs, hw, hget⟩
        exact ⟨j, w, hj, hget, ih _ hmem hs (fun h => hk (.member ht hf hj h)) hw⟩
      cases hv with
      | mapping ht' hl h =>
        cases ht.symm.trans ht'
        exact .mapping ht hl (hfields h)
      | loaded ht' hl h hload =>
        cases ht.symm.trans ht'
        exact .loaded ht hl (hfields h) hload
      | scalar _ ht' => cases ht.symm.trans ht'
      | enum ht' => cases ht.symm.trans ht'
    · intro u hnull
      obtain ⟨_, -, ⟨⟩⟩ := map_eq_ok.mp hnull
  | leaf j harray hobject =>
    intro name type shape w v hs hk hw hv
    rw [literal_leaf harray hobject] at hw
    exact reads_of_wrapperLiteral (fun _ => harray) (fun h => by cases h) (fun hj _ => reads_of_noObject hd hj)
      hs hk hw hv

/-- With the casing of a built model and a description that mirrors it, the client finds each field under its host
name, as the field of the description by whose name the server finds the field. And if objects that stand for input
objects are keyed by the host names of declared fields, then what the client writes and the server decodes is read
as it was given: with these keys and the declared defaults, the same members and the same lists. -/
theorem names_agree {s : Setting} {roots : RootRecords} (h : Model.build s roots = .ok m)
    (hn : m.FieldsDistinct) (hd : d.Mirrors m) :
    (∀ {name t fields f}, m.type? name = some t → t.fields? = some fields → f ∈ fields →
      ∃ g : FieldDescription, (⟨d, m.casing⟩ : Writer).field name f.hostName = .ok (.mk g none [] []) ∧
        g.Mirrors f ∧ ∀ r : FieldRequest, r.parentType = name → r.wireName = g.name →
          m.requestedField r = .ok f) ∧
    ∀ {name j type shape w v}, shape.Mirrors type → m.Keyed type j → literal d m.casing name j shape = .ok w →
      m.decode type w = .ok v → m.Reads type j v := by
  have hm := Model.distinct_of_build h
  refine ⟨fun {name t fields f} ht hfields hf => ?_, fun {name j type shape w v} hs hk hw hv => ?_⟩
  · exact field_agrees hd ht hfields (hn ht hfields) hf ((Model.wireName_of_build h ht).1 hfields f hf)
  · exact reads_of_literal hm hd (fun ht => (Model.wireName_of_build h ht).2 rfl) j hs hk hw
      ((Model.decode_eq_ok hm).mp hv).conforms

theorem not_objectAt_string {text : String} {t : InputObjectType} {members : List (String × Json)} :
    ¬ m.ObjectAt type (.string text) t members := by
  intro h
  -- A single value stands for a list, so the induction goes through the wrappers.
  generalize hj : Json.string text = j at h
  induction h with
  | here => cases hj
  | nonNull _ ih => exact ih hj
  | item => cases hj
  | single _ _ ih => exact ih hj
  | member => cases hj

/-- A single order by host names, where a list of them is asked for. -/
def clientOrder : Json := .object [("book_title", .string "Solo")]

/-- What the client writes for it. -/
def clientOrderWritten : WireValue := .list [.object [("bookTitle", .string "Solo")]]

/-- What the server decodes from that: it adds the declared number of copies. -/
def clientOrderRead : Value :=
  .list [.mapping [("book_title", .string "Solo"), ("copy_count", .int 1)]]

theorem agree_clientOrder : ∃ m, Model.build Model.orderSetting Model.orderRoots = .ok m ∧ m.FieldsDistinct ∧
    (describe m).Mirrors m ∧ m.Keyed (.list (.named "OrderInput")) clientOrder ∧
    literal (describe m) m.casing "orders" clientOrder (shapeOf m (.list (.named "OrderInput"))) =
      .ok clientOrderWritten ∧
    m.decode (.list (.named "OrderInput")) clientOrderWritten = .ok clientOrderRead ∧
    m.Reads (.list (.named "OrderInput")) clientOrder clientOrderRead := by
  obtain ⟨m, t, hm, hall, ht, hhosts, hw, hv⟩ :
      ∃ m t, Model.build Model.orderSetting Model.orderRoots = .ok m ∧
        (m.types.values.all fun t => decide ((t.fields?.getD []).map WireField.name).Nodup) = true ∧
        m.type? "OrderInput" = some (.inputObject t) ∧
        t.fields.map InputField.hostName = ["book_title", "copy_count", "gift_notes"] ∧
        literal (describe m) m.casing "orders" clientOrder (shapeOf m (.list (.named "OrderInput"))) =
          .ok clientOrderWritten ∧
        m.decode (.list (.named "OrderInput")) clientOrderWritten = .ok clientOrderRead :=
    ⟨_, _, rfl, rfl, rfl, rfl, rfl, rfl⟩
  have hn : m.FieldsDistinct := by
    intro name t fields ht hfields
    have hnames := List.all_eq_true.mp hall t (Registry.mem_values_of_get? ht)
    rw [hfields] at hnames
    exact of_decide_eq_true hnames
  have hk : m.Keyed (.list (.named "OrderInput")) clientOrder := by
    intro u members hat
    cases hat with | single _ hat =>
    cases hat with
    | here hu =>
      cases ht.symm.trans hu
      refine ⟨List.nodup_singleton _, fun key hkey => ?_⟩
      obtain rfl := List.mem_singleton.mp hkey
      have hmem : "book_title" ∈ t.fields.map InputField.hostName := by rw [hhosts]; exact List.mem_cons_self
      exact List.mem_map.mp hmem
    | @member _ _ _ f j _ _ _ _ hj hat =>
      obtain rfl : Json.string "Solo" = j := by
        rw [Entries.get?_cons] at hj
        split at hj
        · exact Option.some.inj hj
        · cases hj
      exact absurd hat not_objectAt_string
  exact ⟨m, hm, hn, mirrors_describe m, hk, hw, hv,
    (names_agree hm hn (mirrors_describe m)).2 (mirrors_shapeOf m _) hk hw hv⟩

end Client

end RecordGraph
