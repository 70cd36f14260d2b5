import RecordGraph.Proofs.Build.Run
/-! What each builder has done when it gave a value: which names it found or registered, which steps
it took below, and what it answered. A builder that registers a type takes its steps from the draft
that already holds the unfinished type. -/

namespace RecordGraph

namespace WireType

/-- The kinds of type that an output field may have. -/
def isOutput : WireType → Bool
  | .inputObject _ => false
  | _ => true

/-- The kinds of type that an argument or input field may have. -/
def isInput : WireType → Bool
  | .scalar _ | .enum _ | .inputObject _ => true
  | _ => false

def isObject : WireType → Bool
  | .object _ => true
  | _ => false

def isInterface : WireType → Bool
  | .interface _ => true
  | _ => false

end WireType

namespace Build

variable {s : Setting} {w : Walker} {d d' : Draft}

/-! Leaves. -/

theorem gives_addUnlessPresent {t : WireType} {u : Unit} (h : (addUnlessPresent t).Gives d u d') :
    (∃ e, d.types.get? t.name = some e ∧ e.kind = t.kind ∧ d' = d) ∨
      d.types.get? t.name = none ∧ d' = d.add t := by
  simp only [addUnlessPresent, gives_bind, gives_type?] at h
  obtain ⟨_, _, ⟨rfl, rfl⟩, h⟩ := h
  split at h
  · rename_i e he
    split at h
    · rename_i hk
      exact .inl ⟨e, he, hk, (gives_pure.mp h).2⟩
    · exact (gives_throw h).elim
  · rename_i hn
    exact .inr ⟨hn, gives_add.mp h⟩

theorem gives_scalar {hostName : String} {ref : TypeRef} (h : (scalar s hostName).Gives d ref d') :
    ∃ t, s.scalar? hostName = some t ∧ ref = .named t.wireName ∧
      ((∃ u, d.types.get? t.wireName = some (.scalar u)) ∧ d' = d ∨
        d.types.get? t.wireName = none ∧ d' = d.add (.scalar t)) := by
  unfold scalar at h
  split at h
  · exact (gives_throw h).elim
  · rename_i t ht
    simp only [gives_bind, gives_type?] at h
    obtain ⟨_, _, ⟨rfl, rfl⟩, h⟩ := h
    split at h
    · rename_i u hu
      obtain ⟨rfl, rfl⟩ := gives_pure.mp h
      exact ⟨t, ht, rfl, .inl ⟨⟨u, hu⟩, rfl⟩⟩
    · exact (gives_throw h).elim
    · rename_i hn
      simp only [gives_bind, gives_add, gives_pure] at h
      obtain ⟨_, _, rfl, rfl, rfl⟩ := h
      exact ⟨t, ht, rfl, .inr ⟨hn, rfl⟩⟩

theorem gives_enum {e : EnumType} {ref : TypeRef} (h : (enum e).Gives d ref d') :
    ref = .named e.name ∧ ((∃ u, d.types.get? e.name = some (.enum u)) ∧ d' = d ∨
      d.types.get? e.name = none ∧ e.members ≠ [] ∧ d' = d.add (.enum e)) := by
  simp only [enum, gives_bind, gives_type?] at h
  obtain ⟨_, _, ⟨rfl, rfl⟩, h⟩ := h
  split at h
  · rename_i u hu
    obtain ⟨rfl, rfl⟩ := gives_pure.mp h
    exact ⟨rfl, .inl ⟨⟨u, hu⟩, rfl⟩⟩
  · exact (gives_throw h).elim
  · rename_i hn
    obtain ⟨hm, h⟩ := gives_guard.mp h
    simp only [gives_bind, gives_add, gives_pure] at h
    obtain ⟨_, _, rfl, rfl, rfl⟩ := h
    exact ⟨rfl, .inr ⟨hn, hm, rfl⟩⟩

theorem gives_defaultValue {name : String} {v : Option Value} {out : Option WireValue}
    (h : (defaultValue name v).Gives d out d') : d' = d ∧ out.map .ok = v.map Value.toWire := by
  unfold defaultValue at h
  split at h
  · obtain ⟨rfl, rfl⟩ := gives_pure.mp h
    exact ⟨rfl, rfl⟩
  · split at h
    · rename_i hw
      obtain ⟨rfl, rfl⟩ := gives_pure.mp h
      exact ⟨rfl, by simp [hw]⟩
    · exact (gives_throw h).elim

/-! Fields. -/

theorem gives_argument {field : String} {a : Argument} {out : WireArgument}
    (h : (argument s w field a).Gives d out d') :
    (a.isInput = false → recordName? s a.type = none) ∧ ∃ ref default,
      (w.input a.type).Gives d ref d' ∧ default.map .ok = a.default.map Value.toWire ∧
      out = { name := s.wireName a.name, hostName := a.name, description := a.description,
              type := if a.required then ref.required else ref, default := default } := by
  have key : (a.isInput = false → recordName? s a.type = none) ∧
      (do let type ← w.input a.type
          let default ← defaultValue a.name a.default
          return { name := s.wireName a.name, hostName := a.name, description := a.description,
                   type := if a.required then type.required else type,
                   default := default } : Build WireArgument).Gives d out d' := by
    unfold argument at h
    cases hi : a.isInput with
    | true =>
      refine ⟨fun he => absurd he Bool.false_ne_true.symm, ?_⟩
      simpa only [hi, Bool.not_true, Bool.false_eq_true, if_false] using h
    | false =>
      cases hr : recordName? s a.type with
      | none => exact ⟨fun _ => rfl, by simpa only [hi, hr, Bool.not_false, if_true] using h⟩
      | some type =>
        simp only [hi, hr, Bool.not_false, if_true, gives_bind, gives_throw, false_and, exists_false] at h
  obtain ⟨hshape, h⟩ := key
  simp only [gives_bind, gives_pure] at h
  obtain ⟨ref, d1, href, default, d2, hd, rfl, rfl⟩ := h
  obtain ⟨rfl, hw⟩ := gives_defaultValue hd
  exact ⟨hshape, ref, default, href, hw, rfl⟩

theorem gives_addPagingArgument {arguments out : List WireArgument} {name host text : String}
    (h : (addPagingArgument s arguments (name, host, text)).Gives d out d') :
    ((∃ a ∈ arguments, a.name = name) ∧ out = arguments ∧ d' = d) ∨
      (∀ a ∈ arguments, a.name ≠ name) ∧ ∃ ref, (scalar s host).Gives d ref d' ∧
        out = arguments ++ [{ name := name, hostName := name, description := some text, type := ref }] := by
  unfold addPagingArgument at h
  simp only at h
  split at h
  · rename_i hc
    obtain ⟨rfl, rfl⟩ := gives_pure.mp h
    exact .inl ⟨by simpa using hc, rfl, rfl⟩
  · rename_i hc
    simp only [gives_bind, gives_pure] at h
    obtain ⟨ref, d1, href, rfl, rfl⟩ := h
    exact .inr ⟨by simpa using hc, ref, href, rfl⟩

theorem gives_outputField {f : Field} {out : WireField} (h : (outputField s w f).Gives d out d') :
    ∃ ref declared d₁ d₂, (w.output f.type).Gives d ref d₁ ∧
      Steps (argument s w f.name) d₁ f.arguments declared d₂ ∧
      ∃ arguments binding,
        out = { name := s.wireName f.sourceName, hostName := f.sourceName,
                description := f.description,
                type := if f.isRequired then ref.required else ref,
                arguments := arguments, connection := binding } ∧
        ((∃ kind element, f.type.stripOptional = .connection kind element ∧
            (pagingArguments.foldlM (addPagingArgument s) declared).Gives d₂ arguments d' ∧
            binding = some ⟨element.name s.catalogue,
              (Entries.get? s.catalogue.connections kind).bind ConnectionKind.resolver⟩) ∨
          (∀ kind element, f.type.stripOptional ≠ .connection kind element) ∧
            arguments = declared ∧ binding = none ∧ d' = d₂) := by
  simp only [outputField, gives_bind, gives_mapM] at h
  obtain ⟨ref, d1, href, declared, d2, hargs, h⟩ := h
  refine ⟨ref, declared, d1, d2, href, hargs, ?_⟩
  split at h
  · rename_i kind element hc
    simp only [gives_bind, gives_pure] at h
    obtain ⟨args, d3, hpage, _, _, ⟨rfl, rfl⟩, rfl, rfl⟩ := h
    exact ⟨args, _, rfl, .inl ⟨kind, element, hc, hpage, rfl⟩⟩
  · rename_i hc
    simp only [gives_bind, gives_pure] at h
    obtain ⟨_, _, ⟨rfl, rfl⟩, rfl, rfl⟩ := h
    exact ⟨declared, none, rfl, .inr ⟨hc, rfl, rfl, rfl⟩⟩

theorem nodup_pagingArguments : (pagingArguments.map Prod.fst).Nodup := by decide

/-- The argument that paging adds under a name. -/
def pagingArgument (s : Setting) : String × String × String → Build WireArgument
  | (name, hostScalar, description) => do
    return { name := name, hostName := name, description := some description, type := ← scalar s hostScalar }

/-- Paging adds the arguments whose names no argument has. -/
theorem gives_paging {ps : List (String × String × String)} {arguments out : List WireArgument}
    (hp : (ps.map Prod.fst).Nodup) (h : (ps.foldlM (addPagingArgument s) arguments).Gives d out d') :
    ∃ added, Steps (pagingArgument s) d
        (ps.filter fun p => arguments.all fun a => a.name != p.1) added d' ∧ out = arguments ++ added := by
  induction ps generalizing d arguments with
  | nil =>
    obtain ⟨rfl, rfl⟩ := gives_pure.mp h
    exact ⟨[], .nil, (List.append_nil _).symm⟩
  | cons p ps ih =>
    obtain ⟨name, host, text⟩ := p
    rw [List.map_cons, List.nodup_cons] at hp
    simp only [List.foldlM_cons, gives_bind] at h
    obtain ⟨next, d1, hadd, h⟩ := h
    obtain ⟨added, hs, rfl⟩ := ih hp.2 h
    rcases gives_addPagingArgument hadd with ⟨⟨a, ha, hn⟩, rfl, rfl⟩ | ⟨hnew, ref, href, rfl⟩
    · refine ⟨added, ?_, rfl⟩
      rwa [List.filter_cons_of_neg]
      exact fun hall => by simpa [hn] using List.all_eq_true.mp hall a ha
    · refine ⟨_ :: added, ?_, by rw [List.append_assoc]; rfl⟩
      rw [List.filter_cons_of_pos (by simpa using hnew)]
      refine .cons (gives_bind.mpr ⟨ref, d1, href, gives_pure.mpr ⟨rfl, rfl⟩⟩) ?_
      -- a name just added is none of the names still to come
      rwa [List.filter_congr fun q hq => ?_] at hs
      have hne : name ≠ q.1 := fun e => hp.1 (List.mem_map.mpr ⟨q, hq, e.symm⟩)
      simp [hne]

theorem gives_addOutputField {type : String} {fields out : List WireField} {f : Field}
    (h : (addOutputField s w type fields f).Gives d out d') :
    ∃ field, (outputField s w f).Gives d field d' ∧ (∀ g ∈ fields, g.name ≠ field.name) ∧
      out = fields ++ [field] := by
  unfold addOutputField at h
  obtain ⟨field, d1, hf, h⟩ := gives_bind.mp h
  obtain ⟨hnew, h⟩ := gives_guard.mp h
  obtain ⟨rfl, rfl⟩ := gives_pure.mp h
  exact ⟨field, hf, by simpa using hnew, rfl⟩

/-- The input field of a field. -/
def inputField (s : Setting) (w : Walker) (f : Field) : Build InputField := do
  let fieldType ← w.input f.type
  let default ← defaultValue f.name f.default
  return { name := s.wireName f.sourceName, hostName := f.sourceName, description := f.description,
           type := if f.isRequired then fieldType.required else fieldType, default := default }

theorem gives_inputField {f : Field} {out : InputField} (h : (inputField s w f).Gives d out d') :
    ∃ ref default, (w.input f.type).Gives d ref d' ∧ default.map .ok = f.default.map Value.toWire ∧
      out = { name := s.wireName f.sourceName, hostName := f.sourceName, description := f.description,
              type := if f.isRequired then ref.required else ref, default := default } := by
  simp only [inputField, gives_bind, gives_pure] at h
  obtain ⟨ref, d1, href, default, d2, hd, rfl, rfl⟩ := h
  obtain ⟨rfl, hw⟩ := gives_defaultValue hd
  exact ⟨ref, default, href, hw, rfl⟩

theorem gives_addInputField {type : String} {fields out : List InputField} {f : Field}
    (h : (addInputField s w type fields f).Gives d out d') :
    ∃ field, (inputField s w f).Gives d field d' ∧ (∀ g ∈ fields, g.name ≠ field.name) ∧
      out = fields ++ [field] := by
  unfold addInputField at h
  obtain ⟨ref, d1, href, h⟩ := gives_bind.mp h
  obtain ⟨hnew, h⟩ := gives_guard.mp h
  obtain ⟨default, d2, hd, h⟩ := gives_bind.mp h
  obtain ⟨rfl, rfl⟩ := gives_pure.mp h
  refine ⟨_, gives_bind.mpr ⟨ref, d1, href, gives_bind.mpr ⟨default, _, hd, ?_⟩⟩, ?_, rfl⟩
  · exact gives_pure.mpr ⟨rfl, rfl⟩
  · simpa using hnew

/-- Collecting items under new names takes one step for each item, and the names end up distinct. -/
theorem gives_collect {α β : Type} (x : α → Build β) (name : β → String)
    {add : List β → α → Build (List β)}
    (hadd : ∀ acc a d out d', (add acc a).Gives d out d' →
      ∃ b, (x a).Gives d b d' ∧ (∀ c ∈ acc, name c ≠ name b) ∧ out = acc ++ [b])
    {as : List α} {acc out : List β} (h : (as.foldlM add acc).Gives d out d')
    (hacc : (acc.map name).Nodup) :
    ∃ bs, Steps x d as bs d' ∧ out = acc ++ bs ∧ (out.map name).Nodup := by
  induction as generalizing d acc with
  | nil =>
    obtain ⟨rfl, rfl⟩ := gives_pure.mp h
    exact ⟨[], .nil, (List.append_nil _).symm, hacc⟩
  | cons a as ih =>
    simp only [List.foldlM_cons, gives_bind] at h
    obtain ⟨next, d1, hnext, h⟩ := h
    obtain ⟨b, hb, hnew, rfl⟩ := hadd _ _ _ _ _ hnext
    have hnd : ((acc ++ [b]).map name).Nodup := by
      rw [List.map_append]
      refine hacc.append (List.nodup_singleton _) ?_
      simpa using fun c hc => hnew c hc
    obtain ⟨bs, hbs, rfl, hout⟩ := ih h hnd
    exact ⟨b :: bs, .cons hb hbs, List.append_assoc _ _ _, hout⟩

theorem gives_outputFields {type : String} {fields : List Field} {out : List WireField}
    (h : (outputFields s w type fields).Gives d out d') :
    Steps (outputField s w) d (fields.filter Field.inOutput) out d' ∧
      (out.map WireField.name).Nodup := by
  unfold outputFields at h
  obtain ⟨bs, hbs, rfl, hnd⟩ := gives_collect (outputField s w) WireField.name
    (fun _ _ _ _ _ => gives_addOutputField) h List.nodup_nil
  exact ⟨hbs, hnd⟩

theorem gives_inputFields {type : String} {fields : List Field} {out : List InputField}
    (h : (inputFields s w type fields).Gives d out d') :
    Steps (inputField s w) d (fields.filter Field.inInput) out d' ∧
      (out.map InputField.name).Nodup := by
  unfold inputFields at h
  obtain ⟨bs, hbs, rfl, hnd⟩ := gives_collect (inputField s w) InputField.name
    (fun _ _ _ _ _ => gives_addInputField) h List.nodup_nil
  exact ⟨hbs, hnd⟩

/-! Types. Each builder finds its name taken by a type of its kind and stops, or registers it. -/

theorem gives_markers {u : Unit} (h : (markers s).Gives d u d') :
    (∃ t, d.types.get? "Connection" = some (.interface t)) ∧ d' = d ∨
      (∀ t, d.types.get? "Connection" ≠ some (.interface t)) ∧
        ∃ id string boolean d₁ d₂ d₃ us, (scalar s "ID").Gives d id d₁ ∧
          (scalar s "String").Gives d₁ string d₂ ∧ (scalar s "bool").Gives d₂ boolean d₃ ∧
          Steps addUnlessPresent d₃ (markerTypes s id string boolean) us d' := by
  simp only [markers, gives_bind, gives_type?] at h
  obtain ⟨_, _, ⟨rfl, rfl⟩, h⟩ := h
  split at h
  · rename_i t ht
    exact .inl ⟨⟨t, ht⟩, (gives_pure.mp h).2⟩
  · rename_i hn
    simp only [gives_bind, gives_forM] at h
    obtain ⟨id, d1, h1, string, d2, h2, boolean, d3, h3, us, hs⟩ := h
    exact .inr ⟨hn, id, string, boolean, d1, d2, d3, us, h1, h2, h3, hs⟩

theorem gives_interface {r : Record} {ref : TypeRef} (h : (interface s w r).Gives d ref d') :
    ref = .named r.name ∧ ((∃ t, d.types.get? r.name = some (.interface t)) ∧ d' = d ∨
      d.types.get? r.name = none ∧ ∃ fields d₁,
        (outputFields s w r.name r.fields).Gives
          (d.add (.interface { name := r.name, description := r.description })) fields d₁ ∧
        fields ≠ [] ∧
        d' = d₁.replace
          (.interface { name := r.name, description := r.description, fields := fields })) := by
  simp only [interface, gives_bind, gives_type?] at h
  obtain ⟨_, _, ⟨rfl, rfl⟩, h⟩ := h
  split at h
  · rename_i t ht
    obtain ⟨rfl, rfl⟩ := gives_pure.mp h
    exact ⟨rfl, .inl ⟨⟨t, ht⟩, rfl⟩⟩
  · exact (gives_throw h).elim
  · rename_i hn
    simp only [gives_bind, gives_add] at h
    obtain ⟨_, _, rfl, fields, d1, hf, h⟩ := h
    obtain ⟨hne, h⟩ := gives_guard.mp h
    simp only [gives_bind, gives_replace, gives_pure] at h
    obtain ⟨_, _, rfl, rfl, rfl⟩ := h
    exact ⟨rfl, .inr ⟨hn, fields, d1, hf, by simpa using hne, rfl⟩⟩

theorem gives_ensureInterface {name : String} {u : Unit}
    (h : (ensureInterface s w name).Gives d u d') :
    (∃ t, d.types.get? name = some (.interface t)) ∧ d' = d ∨
      d.types.get? name = none ∧ (isMarker name = true ∧ (markers s).Gives d () d' ∨
        isMarker name = false ∧ ∃ r ref, s.interface? name = some r ∧ (interface s w r).Gives d ref d') := by
  simp only [ensureInterface, gives_bind, gives_type?] at h
  obtain ⟨_, _, ⟨rfl, rfl⟩, h⟩ := h
  split at h
  · rename_i t ht
    exact .inl ⟨⟨t, ht⟩, (gives_pure.mp h).2⟩
  · exact (gives_throw h).elim
  · rename_i hn
    refine .inr ⟨hn, ?_⟩
    split at h
    · rename_i hm
      exact .inl ⟨hm, h⟩
    · rename_i hm
      refine .inr ⟨by simpa using hm, ?_⟩
      split at h
      · rename_i r hr
        obtain ⟨ref, hi⟩ := gives_discard.mp h
        exact ⟨r, ref, hr, hi⟩
      · exact (gives_throw h).elim

theorem gives_objectNamed {name : String} {interfaces : List String} {r : Record} {ref : TypeRef}
    (h : (objectNamed s w name interfaces r).Gives d ref d') :
    ref = .named name ∧ ((∃ t, d.types.get? name = some (.object t)) ∧ d' = d ∨
      d.types.get? name = none ∧ ∃ fields d₁ us d₂,
        (outputFields s w name r.fields).Gives
          (d.add (.object { name := name, description := r.description, interfaces := interfaces }))
          fields d₁ ∧
        fields ≠ [] ∧ Steps (ensureInterface s w) d₁ interfaces us d₂ ∧
        d' = d₂.replace (.object { name := name, description := r.description, fields := fields,
                                   interfaces := interfaces })) := by
  simp only [objectNamed, gives_bind, gives_type?] at h
  obtain ⟨_, _, ⟨rfl, rfl⟩, h⟩ := h
  split at h
  · rename_i t ht
    obtain ⟨rfl, rfl⟩ := gives_pure.mp h
    exact ⟨rfl, .inl ⟨⟨t, ht⟩, rfl⟩⟩
  · exact (gives_throw h).elim
  · rename_i hn
    simp only [gives_bind, gives_add] at h
    obtain ⟨_, _, rfl, fields, d1, hf, h⟩ := h
    obtain ⟨hne, h⟩ := gives_guard.mp h
    simp only [gives_bind, gives_forM, gives_replace, gives_pure] at h
    obtain ⟨_, d2, ⟨us, hs⟩, _, _, rfl, rfl, rfl⟩ := h
    exact ⟨rfl, .inr ⟨hn, fields, d1, us, d2, hf, by simpa using hne, hs, rfl⟩⟩

theorem gives_inputObject {r : Record} {ref : TypeRef} (h : (inputObject s w r).Gives d ref d') :
    ref = .named (r.name ++ "Input") ∧
      ((∃ t, d.types.get? (r.name ++ "Input") = some (.inputObject t)) ∧ d' = d ∨
        d.types.get? (r.name ++ "Input") = none ∧ ∃ fields d₁,
          (inputFields s w (r.name ++ "Input") r.fields).Gives
            (d.add (.inputObject { name := r.name ++ "Input", description := r.description,
                                   loader := r.loader })) fields d₁ ∧
          fields ≠ [] ∧
          d' = d₁.replace (.inputObject { name := r.name ++ "Input", description := r.description,
                                          fields := fields, loader := r.loader })) := by
  simp only [inputObject, gives_bind, gives_type?] at h
  obtain ⟨_, _, ⟨rfl, rfl⟩, h⟩ := h
  split at h
  · rename_i t ht
    obtain ⟨rfl, rfl⟩ := gives_pure.mp h
    exact ⟨rfl, .inl ⟨⟨t, ht⟩, rfl⟩⟩
  · exact (gives_throw h).elim
  · rename_i hn
    simp only [gives_bind, gives_add] at h
    obtain ⟨_, _, rfl, fields, d1, hf, h⟩ := h
    obtain ⟨hne, h⟩ := gives_guard.mp h
    simp only [gives_bind, gives_replace, gives_pure] at h
    obtain ⟨_, _, rfl, rfl, rfl⟩ := h
    exact ⟨rfl, .inr ⟨hn, fields, d1, hf, by simpa using hne, rfl⟩⟩

/-- The kind of a connection; an unknown key means the plain kind. -/
def kindOf (s : Setting) (kind : String) : ConnectionKind :=
  (Entries.get? s.catalogue.connections kind).getD {}

/-- The names of the extra fields of a kind. -/
def extraNames (s : Setting) (kind : String) : List String := (kindOf s kind).fields.map Field.name

/-- The edge type of an element. -/
def edgeType (r : Record) (cursor : TypeRef) : ObjectType :=
  { name := r.name ++ "Edge"
    fields := [.plain "node" (TypeRef.named (r.name ++ "Node")).required, .plain "cursor" cursor.required]
    interfaces := ["Edge"] }

/-- The fields that every connection type has before those of its kind. -/
def connectionHead (s : Setting) (r : Record) : List WireField :=
  [{ WireField.plain "edges" (TypeRef.list (TypeRef.named (r.name ++ "Edge")).required).required with
     description := some "Connection edges" },
   { s.field "page_info" (.named pageInfoType) with description := some "Pagination information" }]

/-- The connection type of an element with the fields of a kind, or none yet. -/
def connectionType (s : Setting) (kind : String) (r : Record) (fields : List WireField) : WireType :=
  .object { name := r.name ++ "Connection", description := (kindOf s kind).description,
            fields := fields, interfaces := ["Connection"] }

theorem gives_connection {kind : String} {element : HostType} {ref : TypeRef}
    (h : (connection s w kind element).Gives d ref d') :
    ∃ r, elementRecord? s element = some r ∧ ref = .named (r.name ++ "Connection") ∧
      ((∃ t, d.types.get? (r.name ++ "Connection") = some (.object t)) ∧
          (∀ defined, Entries.get? d.connectionFields (r.name ++ "Connection") = some defined →
            defined = extraNames s kind) ∧ d' = d ∨
        d.types.get? (r.name ++ "Connection") = none ∧ hasNodeId s r = true ∧
          ∃ d₁ node d₂ cursor d₃ d₄ fields d₅, (markers s).Gives d () d₁ ∧
            (objectNamed s w (r.name ++ "Node") ["Node"] r).Gives
              ((d₁.noteConnection (r.name ++ "Connection") (extraNames s kind)).add
                (connectionType s kind r [])) node d₂ ∧
            (scalar s "String").Gives d₂ cursor d₃ ∧
            (addUnlessPresent (.object (edgeType r cursor))).Gives d₃ () d₄ ∧
            (outputFields s w (r.name ++ "Connection") (kindOf s kind).fields).Gives d₄ fields d₅ ∧
            d' = d₅.replace (connectionType s kind r (connectionHead s r ++ fields))) := by
  unfold connection at h
  split at h
  · exact (gives_throw h).elim
  · rename_i r hr
    simp only [gives_bind, gives_type?] at h
    obtain ⟨_, _, ⟨rfl, rfl⟩, h⟩ := h
    refine ⟨r, hr, ?_⟩
    split at h
    · rename_i t ht
      simp only [gives_bind, gives_get] at h
      obtain ⟨_, _, ⟨rfl, rfl⟩, h⟩ := h
      split at h
      · rename_i defined hd
        split at h
        · rename_i he
          obtain ⟨rfl, rfl⟩ := gives_pure.mp h
          refine ⟨rfl, .inl ⟨⟨t, ht⟩, fun other ho => ?_, rfl⟩⟩
          exact (Option.some.inj (ho.symm.trans hd)).trans he
        · exact (gives_throw h).elim
      · rename_i hd
        obtain ⟨rfl, rfl⟩ := gives_pure.mp h
        refine ⟨rfl, .inl ⟨⟨t, ht⟩, fun other ho => ?_, rfl⟩⟩
        cases hd.symm.trans ho
    · exact (gives_throw h).elim
    · rename_i hn
      obtain ⟨hid, h⟩ := gives_guard.mp h
      simp only [gives_bind, gives_modify, gives_add, gives_replace, gives_pure] at h
      obtain ⟨_, d1, hm, _, _, rfl, _, _, rfl, node, d2, hnode, cursor, d3, hc, _, d4, he, fields, d5, hf,
        _, _, rfl, rfl, rfl⟩ := h
      exact ⟨rfl, .inr ⟨hn, by simpa using hid, d1, node, d2, cursor, d3, d4, fields, d5, hm, hnode, hc, he,
        hf, rfl⟩⟩

theorem gives_namedOutput {name : String} {ref : TypeRef} (h : (namedOutput s w name).Gives d ref d') :
    (∃ t, d.types.get? name = some t ∧ t.isOutput = true) ∧ ref = .named name ∧ d' = d ∨
      d.types.get? name = none ∧
        ((∃ r, s.interface? name = some r ∧ (interface s w r).Gives d ref d') ∨
          s.interface? name = none ∧ (∃ r, s.record? name = some r ∧ (object s w r).Gives d ref d') ∨
          s.interface? name = none ∧ s.record? name = none ∧ isMarker name = true ∧
            ref = .named name ∧ (markers s).Gives d () d') := by
  simp only [namedOutput, gives_bind, gives_type?] at h
  obtain ⟨_, _, ⟨rfl, rfl⟩, h⟩ := h
  split at h
  · exact (gives_throw h).elim
  · rename_i t hne ht
    obtain ⟨rfl, rfl⟩ := gives_pure.mp h
    refine .inl ⟨⟨t, ht, ?_⟩, rfl, rfl⟩
    cases t with
    | inputObject u => exact absurd rfl (hne u)
    | _ => rfl
  · rename_i hn
    refine .inr ⟨hn, ?_⟩
    split at h
    · rename_i r hr
      exact .inl ⟨r, hr, h⟩
    · rename_i r hi hr
      exact .inr (.inl ⟨hi, r, hr, h⟩)
    · rename_i hi hr
      split at h
      · rename_i hm
        simp only [gives_bind, gives_pure] at h
        obtain ⟨_, _, hmark, rfl, rfl⟩ := h
        exact .inr (.inr ⟨hi, hr, hm, rfl, hmark⟩)
      · exact (gives_throw h).elim

theorem gives_namedInput {name : String} {ref : TypeRef} (h : (namedInput s w name).Gives d ref d') :
    (∃ t, d.types.get? name = some t ∧ t.isInput = true) ∧ ref = .named name ∧ d' = d ∨
      (∀ t, d.types.get? name = some t → t.isInput = false) ∧
        ∃ r, (s.record? name).or (s.interface? name) = some r ∧ (inputObject s w r).Gives d ref d' := by
  simp only [namedInput, gives_bind, gives_type?] at h
  obtain ⟨_, _, ⟨rfl, rfl⟩, h⟩ := h
  split at h
  any_goals
    rename_i t ht
    obtain ⟨rfl, rfl⟩ := gives_pure.mp h
    exact .inl ⟨⟨_, ht, rfl⟩, rfl, rfl⟩
  rename_i h1 h2 h3
  refine .inr ⟨fun t ht => ?_, ?_⟩
  · cases t with
    | scalar u => exact absurd ht (h1 u)
    | enum u => exact absurd ht (h2 u)
    | inputObject u => exact absurd ht (h3 u)
    | _ => rfl
  · split at h
    · rename_i r hr
      exact ⟨r, hr, h⟩
    · exact (gives_throw h).elim

end Build

namespace Walker

variable {s : Setting} {d d' : Draft} {t : HostType} {ref : TypeRef} {steps : Nat}

/-- A walk that gives a reference was given steps. -/
theorem output_succ (h : ((within s steps).output t).Gives d ref d') : ∃ below, steps = below + 1 := by
  cases steps with
  | zero => exact (Build.gives_throw h).elim
  | succ below => exact ⟨below, rfl⟩

theorem input_succ (h : ((within s steps).input t).Gives d ref d') : ∃ below, steps = below + 1 := by
  cases steps with
  | zero => exact (Build.gives_throw h).elim
  | succ below => exact ⟨below, rfl⟩

/-! A list refers to a list of what its elements refer to. -/

theorem gives_output_list (h : ((within s (steps + 1)).output (.list t)).Gives d ref d') :
    ∃ element, ((within s steps).output t).Gives d element d' ∧ ref = .list element :=
  Build.gives_map.mp h

theorem gives_input_list (h : ((within s (steps + 1)).input (.list t)).Gives d ref d') :
    ∃ element, ((within s steps).input t).Gives d element d' ∧ ref = .list element :=
  Build.gives_map.mp h

/-! A key of the catalogue has an entry, or the walk fails. -/

theorem gives_output_enum {key : String} (h : ((within s (steps + 1)).output (.enum key)).Gives d ref d') :
    ∃ e, Entries.get? s.catalogue.enums key = some e ∧ (Build.enum e).Gives d ref d' := by
  simp only [within, step] at h
  split at h
  · rename_i e he
    exact ⟨e, he, h⟩
  · exact (Build.gives_throw h).elim

theorem gives_output_record {key : String}
    (h : ((within s (steps + 1)).output (.record key)).Gives d ref d') :
    ∃ r, Entries.get? s.catalogue.records key = some r ∧
      (Build.object s (within s steps) r).Gives d ref d' := by
  simp only [within, step] at h
  split at h
  · rename_i r hr
    exact ⟨r, hr, h⟩
  · exact (Build.gives_throw h).elim

theorem gives_input_enum {key : String} (h : ((within s (steps + 1)).input (.enum key)).Gives d ref d') :
    ∃ e, Entries.get? s.catalogue.enums key = some e ∧ (Build.enum e).Gives d ref d' := by
  simp only [within, step] at h
  split at h
  · rename_i e he
    exact ⟨e, he, h⟩
  · exact (Build.gives_throw h).elim

theorem gives_input_record {key : String}
    (h : ((within s (steps + 1)).input (.record key)).Gives d ref d') :
    ∃ r, Entries.get? s.catalogue.records key = some r ∧
      (Build.inputObject s (within s steps) r).Gives d ref d' := by
  simp only [within, step] at h
  split at h
  · rename_i r hr
    exact ⟨r, hr, h⟩
  · exact (Build.gives_throw h).elim

end Walker

end RecordGraph
