import RecordGraph.Proofs.Build.Registered
/-! Casing changes names and nothing else. A build in camel case and one that keeps host names take the same
steps: wherever a step looks at a wire name, the names it compares can be turned back, so it finds the same
answer in both builds. What the two leave differs in the names of fields, arguments and input fields only. -/

namespace RecordGraph

/-! The same things with wire names in camel case. -/

namespace Casing

/-- A host name that can be turned back from its wire name in camel case. -/
def RoundTrips (name : String) : Prop := camel.toHost (camel.toWire name) = name

instance : DecidablePred RoundTrips := fun _ => inferInstanceAs (Decidable (_ = _))

variable {a b : String}

theorem toWire_inj (ha : RoundTrips a) (hb : RoundTrips b) (h : camel.toWire a = camel.toWire b) : a = b :=
  ha.symm.trans ((congrArg camel.toHost h).trans hb)

/-- Names that can be turned back are told apart on the wire. -/
theorem beq_toWire (ha : RoundTrips a) (hb : RoundTrips b) :
    (camel.toWire a == camel.toWire b) = (a == b) := by
  rw [Bool.eq_iff_iff, beq_iff_eq, beq_iff_eq]
  exact ⟨toWire_inj ha hb, congrArg _⟩

end Casing

/-- The argument under its name in camel case. -/
def WireArgument.camel (a : WireArgument) : WireArgument := { a with name := Casing.camel.toWire a.name }

/-- The field and its arguments under their names in camel case. -/
def WireField.camel (f : WireField) : WireField :=
  { f with name := Casing.camel.toWire f.name, arguments := f.arguments.map WireArgument.camel }

/-- The input field under its name in camel case. -/
def InputField.camel (f : InputField) : InputField := { f with name := Casing.camel.toWire f.name }

/-- The type with its fields under their names in camel case. Its own name stays. -/
def WireType.camel : WireType → WireType
  | .scalar t => .scalar t
  | .enum t => .enum t
  | .object t => .object { t with fields := t.fields.map WireField.camel }
  | .interface t => .interface { t with fields := t.fields.map WireField.camel }
  | .inputObject t => .inputObject { t with fields := t.fields.map InputField.camel }

/-- The registry with a change made to each of its values, under the same names in the same order. -/
def Registry.map (f : α → α) (r : Registry α) : Registry α :=
  ⟨r.slots.map f, r.index, by simpa using r.numbered⟩

/-- The draft with all fields under their names in camel case. -/
def Draft.camel (d : Draft) : Draft := { d with types := d.types.map WireType.camel }

/-- The model with all fields under their names in camel case. -/
def Model.camel (m : Model) : Model := { m with types := m.types.map WireType.camel, casing := .camel }

/-- The error with the wire name that it tells in camel case. -/
def ModelError.camel : ModelError → ModelError
  | .duplicateField field type => .duplicateField (Casing.camel.toWire field) type
  | e => e

namespace Setting

/-- The setting with host names kept as they are. -/
def verbatim (s : Setting) : Setting := { s with options := { s.options with camelCase := false } }

/-- The setting with wire names in camel case. -/
def camel (s : Setting) : Setting := { s with options := { s.options with camelCase := true } }

end Setting

/-- The names that a field and its arguments get their wire names from can be turned back. -/
structure Field.RoundTrips (f : Field) : Prop where
  name : Casing.RoundTrips f.sourceName
  arguments : ∀ a ∈ f.arguments, Casing.RoundTrips a.name

instance (f : Field) : Decidable f.RoundTrips :=
  decidable_of_iff (Casing.RoundTrips f.sourceName ∧ ∀ a ∈ f.arguments, Casing.RoundTrips a.name)
    ⟨fun h => ⟨h.1, h.2⟩, fun h => ⟨h.1, h.2⟩⟩

/-- The names of all fields that are shown anywhere can be turned back. -/
def NamesRoundTrip (fields : List Field) : Prop := ∀ f ∈ fields, f.isHidden = false → f.RoundTrips

instance (fields : List Field) : Decidable (NamesRoundTrip fields) :=
  inferInstanceAs (Decidable (∀ f ∈ fields, f.isHidden = false → f.RoundTrips))

/-- The names in all records and connection kinds that a build may meet can be turned back. -/
structure Setting.RoundTrips (s : Setting) (roots : List Record) : Prop where
  records : ∀ r ∈ roots ++ s.knownRecords, NamesRoundTrip r.fields
  connections : ∀ kind ∈ s.catalogue.connections.map Prod.snd, NamesRoundTrip kind.fields

instance (s : Setting) (roots : List Record) : Decidable (s.RoundTrips roots) :=
  decidable_of_iff ((∀ r ∈ roots ++ s.knownRecords, NamesRoundTrip r.fields) ∧
      ∀ kind ∈ s.catalogue.connections.map Prod.snd, NamesRoundTrip kind.fields)
    ⟨fun h => ⟨h.1, h.2⟩, fun h => ⟨h.1, h.2⟩⟩

/-! Registries and drafts in camel case. -/

namespace Registry

variable {α : Type u} {f : α → α} {r : Registry α} {name : String} {value : α}

theorem get?_map : (r.map f).get? name = (r.get? name).map f := by
  change (Entries.get? r.index name).bind _ = ((Entries.get? r.index name).bind _).map f
  cases Entries.get? r.index name with
  | none => rfl
  | some id => exact Array.getElem?_map

theorem ext_slots {r r' : Registry α} (hs : r.slots = r'.slots) (hi : r.index = r'.index) : r = r' := by
  cases r; cases r'; cases hs; cases hi; rfl

theorem map_add : ((r.add name value).1.map f) = ((r.map f).add name (f value)).1 := by
  by_cases h : r.get? name = none
  · have hm : (r.map f).get? name = none := by rw [get?_map, h, Option.map_none]
    apply ext_slots
    · rw [slots_add hm]
      simp [map, slots_add h]
    · rw [index_add hm]
      simp [map, index_add h]
  · have hm : (r.map f).get? name ≠ none := by rwa [get?_map, ne_eq, Option.map_eq_none_iff]
    rw [add_of_mem h, add_of_mem hm]

theorem map_set : (r.set name value).map f = (r.map f).set name (f value) := by
  have hid : (r.map f).id? name = r.id? name := rfl
  unfold set
  rw [hid]
  cases r.id? name with
  | none => rfl
  | some id => exact ext_slots (by simp [map, setSlot, Array.map_setIfInBounds]) rfl

end Registry

theorem WireType.name_camel (t : WireType) : t.camel.name = t.name := by cases t <;> rfl

theorem WireType.kind_camel (t : WireType) : t.camel.kind = t.kind := by cases t <;> rfl

namespace Draft

variable (d : Draft) (t : WireType)

theorem get?_camel (name : String) : d.camel.types.get? name = (d.types.get? name).map WireType.camel :=
  Registry.get?_map

theorem camel_empty : ({} : Draft).camel = {} :=
  congrArg (Draft.mk · _) (Registry.ext_slots (by simp [Registry.map, Registry.empty]) rfl)

theorem camel_add : (d.add t).camel = d.camel.add t.camel := by
  rw [add, add, t.name_camel]
  exact congrArg (Draft.mk · _) Registry.map_add

theorem camel_replace : (d.replace t).camel = d.camel.replace t.camel := by
  have hkind : ((d.camel.types.get? t.name).map WireType.kind) = (d.types.get? t.name).map WireType.kind := by
    rw [get?_camel, Option.map_map]
    exact congrArg (Option.map · _) (funext WireType.kind_camel)
  unfold replace
  rw [t.name_camel, t.kind_camel, hkind]
  split
  · exact congrArg (Draft.mk · _) Registry.map_set
  · rfl

end Draft

namespace Build

variable {α β γ δ : Type} {R : α → β → Prop} {T : γ → δ → Prop} {d d' : Draft}

/-- Two runs end alike: both with a value, or both with an error, and in drafts that differ in casing only. -/
inductive Alike (R : α → β → Prop) : Except ModelError α × Draft → Except ModelError β × Draft → Prop where
  | ok {a : α} {b : β} {d : Draft} : R a b → Alike R (.ok a, d) (.ok b, d.camel)
  | error {e : ModelError} {d : Draft} : Alike R (.error e, d) (.error e.camel, d.camel)

/-- The second step does in camel case what the first one does with host names as they are. -/
def Mirrors (R : α → β → Prop) (x : Build α) (y : Build β) : Prop :=
  ∀ d, Alike R (x.outcome d) (y.outcome d.camel)

theorem mirrors_pure {a : α} {b : β} (h : R a b) : Mirrors R (pure a) (pure b) := fun _ => .ok h

theorem mirrors_throw (e : ModelError) : Mirrors R (throw e) (throw e.camel) := fun _ => .error

theorem mirrors_bind {x : Build α} {y : Build β} {f : α → Build γ} {g : β → Build δ} (h : Mirrors R x y)
    (hfg : ∀ a b, R a b → Mirrors T (f a) (g b)) : Mirrors T (x >>= f) (y >>= g) := by
  intro d
  rw [outcome_bind, outcome_bind]
  generalize hx : x.outcome d = p
  generalize hy : y.outcome d.camel = q
  have hpq : Alike R p q := hx ▸ hy ▸ h d
  cases hpq with
  | ok hab => exact hfg _ _ hab _
  | error => exact .error

theorem mirrors_get {f g : Draft → Build α} {T : α → α → Prop} (h : ∀ d, Mirrors T (f d) (g d.camel)) :
    Mirrors T (get >>= f) (get >>= g) := fun d => h d d

theorem mirrors_modify {f g : Draft → Draft} (h : ∀ d, (f d).camel = g d.camel) :
    Mirrors Eq (modify f) (modify g) := by
  intro d
  change Alike Eq (.ok (), f d) (.ok (), g d.camel)
  rw [← h]
  exact .ok rfl

theorem mirrors_add (t : WireType) : Mirrors Eq (add t) (add t.camel) :=
  mirrors_modify fun d => d.camel_add t

theorem mirrors_replace (t : WireType) : Mirrors Eq (replace t) (replace t.camel) :=
  mirrors_modify fun d => d.camel_replace t

/-- A look at a name finds the same type, with its fields in camel case. -/
theorem mirrors_type? {name : String} {f : Option WireType → Build γ} {g : Option WireType → Build δ}
    (h : ∀ found, Mirrors T (f found) (g (found.map WireType.camel))) :
    Mirrors T (type? name >>= f) (type? name >>= g) := by
  intro d
  have hd := h (d.types.get? name) d
  rw [← Draft.get?_camel] at hd
  exact hd

theorem mirrors_guard {c c' : Prop} [Decidable c] [Decidable c'] {e e' : ModelError} {x : Build α} {y : Build β}
    (hc : c ↔ c') (he : e' = e.camel) (h : Mirrors R x y) :
    Mirrors R (if c then (throw e : Build Unit) >>= fun _ => x else x)
      (if c' then (throw e' : Build Unit) >>= fun _ => y else y) := by
  by_cases hp : c
  · rw [if_pos hp, if_pos (hc.mp hp), he]
    exact fun d => .error
  · rw [if_neg hp, if_neg (mt hc.mpr hp)]
    exact h

theorem mirrors_discard {x : Build α} {y : Build β} (h : Mirrors R x y) :
    Mirrors Eq (discard x) (discard y) := by
  change Mirrors Eq ((fun _ => ()) <$> x) ((fun _ => ()) <$> y)
  rw [map_eq_pure_bind, map_eq_pure_bind]
  exact mirrors_bind h fun _ _ _ => mirrors_pure rfl

/-! Lists of steps. -/

theorem mirrors_mapM {x : α → Build γ} {y : α → Build δ} {as : List α}
    (h : ∀ a ∈ as, Mirrors T (x a) (y a)) : Mirrors (List.Forall₂ T) (as.mapM x) (as.mapM y) := by
  induction as with
  | nil => exact mirrors_pure .nil
  | cons a as ih =>
    rw [List.mapM_cons, List.mapM_cons]
    rw [List.forall_mem_cons] at h
    refine mirrors_bind h.1 fun b b' hb => mirrors_bind (ih h.2) fun bs bs' hbs => ?_
    exact mirrors_pure (.cons hb hbs)

theorem mirrors_forM_map {x y : α → Build Unit} {f : α → α} {as : List α}
    (h : ∀ a ∈ as, Mirrors Eq (x a) (y (f a))) : Mirrors Eq (as.forM x) ((as.map f).forM y) := by
  induction as with
  | nil => exact mirrors_pure rfl
  | cons a as ih =>
    rw [List.forall_mem_cons] at h
    exact mirrors_bind h.1 fun _ _ _ => ih h.2

theorem mirrors_forM {x y : α → Build Unit} {as : List α} (h : ∀ a ∈ as, Mirrors Eq (x a) (y a)) :
    Mirrors Eq (as.forM x) (as.forM y) := by
  have hmap := mirrors_forM_map (f := id) h
  rwa [List.map_id] at hmap

theorem mirrors_foldlM {x : γ → α → Build γ} {y : δ → α → Build δ} {as : List α} {c : γ} {c' : δ} (hc : T c c')
    (h : ∀ a ∈ as, ∀ c c', T c c' → Mirrors T (x c a) (y c' a)) :
    Mirrors T (as.foldlM x c) (as.foldlM y c') := by
  induction as generalizing c c' with
  | nil => exact mirrors_pure hc
  | cons a as ih =>
    rw [List.foldlM_cons, List.foldlM_cons]
    rw [List.forall_mem_cons] at h
    exact mirrors_bind (h.1 c c' hc) fun _ _ hc => ih hc h.2

end Build

/-! Arguments and fields whose names can be turned back. -/

/-- The second list is the first one in camel case, from where the names of its items can be turned back. -/
def Recased (recase : α → α) (nameOf : α → String) (as bs : List α) : Prop :=
  bs = as.map recase ∧ ∀ a ∈ as, Casing.RoundTrips (nameOf a)

namespace Recased

variable {α : Type} {recase : α → α} {nameOf : α → String} {as bs : List α} {a : α} {name : String}

theorem nil : Recased recase nameOf [] [] := ⟨rfl, List.forall_mem_nil _⟩

theorem snoc (h : Recased recase nameOf as bs) (ha : Casing.RoundTrips (nameOf a)) :
    Recased recase nameOf (as ++ [a]) (bs ++ [recase a]) := by
  refine ⟨by rw [h.1, List.map_append, List.map_singleton], ?_⟩
  rw [List.forall_mem_append, List.forall_mem_singleton]
  exact ⟨h.2, ha⟩

theorem ofForall₂ (h : List.Forall₂ (fun a b => b = recase a ∧ Casing.RoundTrips (nameOf a)) as bs) :
    Recased recase nameOf as bs := by
  induction h with
  | nil => exact nil
  | cons hab _ ih => exact ⟨by rw [List.map_cons, ← hab.1, ih.1], List.forall_mem_cons.mpr ⟨hab.2, ih.2⟩⟩

/-- Among names that can be turned back, a name is taken in camel case exactly if it is taken as it is. -/
theorem any_name (h : Recased recase nameOf as bs)
    (hname : ∀ a, nameOf (recase a) = Casing.camel.toWire (nameOf a)) (hn : Casing.RoundTrips name) :
    (bs.any fun b => nameOf b == Casing.camel.toWire name) = as.any fun a => nameOf a == name := by
  obtain ⟨rfl, has⟩ := h
  rw [List.any_map, Bool.eq_iff_iff, List.any_eq_true, List.any_eq_true]
  have hbeq : ∀ a ∈ as, (nameOf (recase a) == Casing.camel.toWire name) = (nameOf a == name) := by
    intro a ha
    rw [hname, Casing.beq_toWire (has a ha) hn]
  constructor
  · rintro ⟨a, ha, he⟩
    exact ⟨a, ha, (hbeq a ha).symm.trans he⟩
  · rintro ⟨a, ha, he⟩
    exact ⟨a, ha, (hbeq a ha).trans he⟩

end Recased

/-- The second walk does in camel case what the first one does with host names as they are. -/
structure Walker.Mirrors (w w' : Walker) : Prop where
  output : ∀ t, Build.Mirrors Eq (w.output t) (w'.output t)
  input : ∀ t, Build.Mirrors Eq (w.input t) (w'.input t)

namespace Build

variable {s : Setting} {w w' : Walker}

theorem mirrors_scalar (hostName : String) :
    Mirrors Eq (scalar s.verbatim hostName) (scalar s.camel hostName) := by
  have hs : s.camel.scalar? hostName = s.verbatim.scalar? hostName := rfl
  unfold scalar
  rw [hs]
  cases s.verbatim.scalar? hostName with
  | none => exact mirrors_throw _
  | some t =>
    refine mirrors_type? fun found => ?_
    rcases found with _ | u
    · exact mirrors_bind (mirrors_add (.scalar t)) fun _ _ _ => mirrors_pure rfl
    · cases u with
      | scalar u => exact mirrors_pure rfl
      | _ => exact mirrors_throw _

theorem mirrors_enum (e : EnumType) : Mirrors Eq (enum e) (enum e) := by
  refine mirrors_type? fun found => ?_
  rcases found with _ | u
  · refine mirrors_guard Iff.rfl rfl ?_
    exact mirrors_bind (mirrors_add (.enum e)) fun _ _ _ => mirrors_pure rfl
  · cases u with
    | enum u => exact mirrors_pure rfl
    | _ => exact mirrors_throw _

theorem mirrors_defaultValue (name : String) (default : Option Value) :
    Mirrors Eq (defaultValue name default) (defaultValue name default) := by
  cases default with
  | none => exact mirrors_pure rfl
  | some value =>
    unfold defaultValue
    simp only
    cases value.toWire with
    | ok w => exact mirrors_pure rfl
    | error cause => exact mirrors_throw _

theorem mirrors_argument (hw : w.Mirrors w') (field : String) {a : Argument} (ha : Casing.RoundTrips a.name) :
    Mirrors (fun b c : WireArgument => c = b.camel ∧ Casing.RoundTrips b.name)
      (argument s.verbatim w field a) (argument s.camel w' field a) := by
  have hbody : Mirrors (fun b c : WireArgument => c = b.camel ∧ Casing.RoundTrips b.name)
      (do let type ← w.input a.type
          let default ← defaultValue a.name a.default
          return { name := s.verbatim.wireName a.name, hostName := a.name, description := a.description,
                   type := if a.required then type.required else type, default := default })
      (do let type ← w'.input a.type
          let default ← defaultValue a.name a.default
          return { name := s.camel.wireName a.name, hostName := a.name, description := a.description,
                   type := if a.required then type.required else type, default := default }) := by
    refine mirrors_bind (hw.input _) ?_
    rintro type _ rfl
    refine mirrors_bind (mirrors_defaultValue _ _) ?_
    rintro default _ rfl
    exact mirrors_pure ⟨rfl, ha⟩
  have hrec : recordName? s.camel a.type = recordName? s.verbatim a.type := by
    induction a.type with
    | list _ ih => exact ih
    | optional _ ih => exact ih
    | _ => rfl
  unfold argument
  rw [hrec]
  cases a.isInput with
  | true => exact hbody
  | false =>
    cases recordName? s.verbatim a.type with
    | none => exact hbody
    | some type => exact fun d => .error

/-- The names of paging arguments are the same in both casings. -/
theorem toWire_pagingArguments : ∀ p ∈ pagingArguments,
    Casing.camel.toWire p.1 = p.1 ∧ Casing.RoundTrips p.1 := by
  unfold Casing.RoundTrips
  decide

theorem mirrors_addPagingArgument {arguments arguments' : List WireArgument}
    (h : Recased WireArgument.camel WireArgument.name arguments arguments') {p : String × String × String}
    (hp : p ∈ pagingArguments) :
    Mirrors (Recased WireArgument.camel WireArgument.name) (addPagingArgument s.verbatim arguments p)
      (addPagingArgument s.camel arguments' p) := by
  obtain ⟨name, hostScalar, description⟩ := p
  obtain ⟨hwire, hname⟩ := toWire_pagingArguments _ hp
  simp only at hwire hname
  have hany := h.any_name (fun _ => rfl) hname
  rw [hwire] at hany
  unfold addPagingArgument
  simp only [hany]
  split
  · exact mirrors_pure h
  · refine mirrors_bind (mirrors_scalar hostScalar) ?_
    rintro type _ rfl
    let a : WireArgument := { name := name, hostName := name, description := some description, type := type }
    have ha : a.camel = a := by rw [WireArgument.camel, hwire]
    have hnew := h.snoc (show Casing.RoundTrips a.name from hname)
    rw [ha] at hnew
    exact mirrors_pure hnew

theorem mirrors_outputField (hw : w.Mirrors w') {f : Field} (hf : f.RoundTrips) :
    Mirrors (fun g g' : WireField => g' = g.camel ∧ Casing.RoundTrips g.name)
      (outputField s.verbatim w f) (outputField s.camel w' f) := by
  refine mirrors_bind (hw.output _) ?_
  rintro type _ rfl
  refine mirrors_bind (mirrors_mapM fun a ha => mirrors_argument hw f.name (hf.arguments a ha)) ?_
  intro arguments arguments' hargs
  replace hargs := Recased.ofForall₂ hargs
  -- the binding of a connection says nothing of wire names
  cases f.type.stripOptional with
  | connection kind element =>
    refine mirrors_bind (mirrors_foldlM hargs fun p hp _ _ hc => mirrors_addPagingArgument hc hp) ?_
    rintro arguments _ ⟨rfl, -⟩
    exact mirrors_pure ⟨rfl, hf.name⟩
  | _ =>
    obtain ⟨rfl, -⟩ := hargs
    exact mirrors_pure ⟨rfl, hf.name⟩

theorem mirrors_outputFields (hw : w.Mirrors w') (type : String) {fields : List Field}
    (hf : NamesRoundTrip fields) :
    Mirrors (Recased WireField.camel WireField.name) (outputFields s.verbatim w type fields)
      (outputFields s.camel w' type fields) := by
  refine mirrors_foldlM .nil fun f hmem acc acc' hacc => ?_
  obtain ⟨hmem, hout⟩ := List.mem_filter.mp hmem
  have hround : f.RoundTrips := hf f hmem (by simpa using (Bool.and_eq_true_iff.mp hout).1)
  refine mirrors_bind (mirrors_outputField hw hround) ?_
  rintro field _ ⟨rfl, hname⟩
  refine mirrors_guard ?_ rfl (mirrors_pure (hacc.snoc hname))
  exact Bool.eq_iff_iff.mp (hacc.any_name (fun _ => rfl) hname).symm

theorem mirrors_inputFields (hw : w.Mirrors w') (type : String) {fields : List Field}
    (hf : NamesRoundTrip fields) :
    Mirrors (Recased InputField.camel InputField.name) (inputFields s.verbatim w type fields)
      (inputFields s.camel w' type fields) := by
  refine mirrors_foldlM .nil fun f hmem acc acc' hacc => ?_
  obtain ⟨hmem, hin⟩ := List.mem_filter.mp hmem
  have hround : f.RoundTrips := hf f hmem (by simpa using (Bool.and_eq_true_iff.mp hin).1)
  refine mirrors_bind (hw.input _) ?_
  rintro fieldType _ rfl
  refine mirrors_guard ?_ rfl (mirrors_bind (mirrors_defaultValue _ _) ?_)
  · exact Bool.eq_iff_iff.mp (hacc.any_name (fun _ => rfl) hround.name).symm
  · rintro default _ rfl
    exact mirrors_pure (hacc.snoc hround.name)

theorem mirrors_addUnlessPresent (t : WireType) :
    Mirrors Eq (addUnlessPresent t) (addUnlessPresent t.camel) := by
  unfold addUnlessPresent
  rw [t.name_camel, t.kind_camel]
  refine mirrors_type? fun found => ?_
  cases found with
  | none => exact mirrors_add t
  | some u =>
    simp only [Option.map_some, u.kind_camel]
    split
    · exact mirrors_pure rfl
    · exact mirrors_throw _

theorem markerTypes_camel (id string boolean : TypeRef) :
    markerTypes s.camel id string boolean = (markerTypes s.verbatim id string boolean).map WireType.camel := by
  have hid : Casing.camel.toWire "id" = "id" := by decide
  have hcursor : Casing.camel.toWire "cursor" = "cursor" := by decide
  simp only [markerTypes, List.map_cons, List.map_nil, WireType.camel, WireField.camel, WireField.plain, hid,
    hcursor]
  rfl

theorem mirrors_markers : Mirrors Eq (markers s.verbatim) (markers s.camel) := by
  have hadd : Mirrors Eq
      (do let id ← scalar s.verbatim "ID"
          let string ← scalar s.verbatim "String"
          let boolean ← scalar s.verbatim "bool"
          (markerTypes s.verbatim id string boolean).forM addUnlessPresent)
      (do let id ← scalar s.camel "ID"
          let string ← scalar s.camel "String"
          let boolean ← scalar s.camel "bool"
          (markerTypes s.camel id string boolean).forM addUnlessPresent) := by
    refine mirrors_bind (mirrors_scalar "ID") ?_
    rintro id _ rfl
    refine mirrors_bind (mirrors_scalar "String") ?_
    rintro string _ rfl
    refine mirrors_bind (mirrors_scalar "bool") ?_
    rintro boolean _ rfl
    rw [markerTypes_camel]
    exact mirrors_forM_map fun t _ => mirrors_addUnlessPresent t
  refine mirrors_type? fun found => ?_
  rcases found with _ | t
  · exact hadd
  · cases t with
    | interface t => exact mirrors_pure rfl
    | _ => exact hadd

theorem mirrors_interface (hw : w.Mirrors w') {r : Record} (hr : NamesRoundTrip r.fields) :
    Mirrors Eq (interface s.verbatim w r) (interface s.camel w' r) := by
  refine mirrors_type? fun found => ?_
  rcases found with _ | t
  · refine mirrors_bind (mirrors_add _) fun _ _ _ => mirrors_bind (mirrors_outputFields hw r.name hr) ?_
    rintro fields _ ⟨rfl, -⟩
    refine mirrors_guard (by simp) rfl ?_
    exact mirrors_bind (mirrors_replace (.interface { name := r.name, description := r.description, fields }))
      fun _ _ _ => mirrors_pure rfl
  · cases t with
    | interface t => exact mirrors_pure rfl
    | _ => exact mirrors_throw _

theorem mirrors_inputObject (hw : w.Mirrors w') {r : Record} (hr : NamesRoundTrip r.fields) :
    Mirrors Eq (inputObject s.verbatim w r) (inputObject s.camel w' r) := by
  refine mirrors_type? fun found => ?_
  rcases found with _ | t
  · refine mirrors_bind (mirrors_add _) fun _ _ _ => mirrors_bind (mirrors_inputFields hw _ hr) ?_
    rintro fields _ ⟨rfl, -⟩
    refine mirrors_guard (by simp) rfl ?_
    exact mirrors_bind (mirrors_replace (.inputObject
        { name := r.name ++ "Input", description := r.description, fields, loader := r.loader }))
      fun _ _ _ => mirrors_pure rfl
  · cases t with
    | inputObject t => exact mirrors_pure rfl
    | _ => exact mirrors_throw _

/-- An element has its identifier in both casings or in neither. -/
theorem hasNodeId_camel {r : Record} (hr : NamesRoundTrip r.fields) :
    hasNodeId s.camel r = hasNodeId s.verbatim r := by
  have hid : Casing.RoundTrips "id" := by unfold Casing.RoundTrips; decide
  have hwire : Casing.camel.toWire "id" = "id" := by decide
  unfold hasNodeId
  rw [Bool.eq_iff_iff, List.any_eq_true, List.any_eq_true]
  refine exists_congr fun f => and_congr_right fun hf => Bool.eq_iff_iff.mp ?_
  by_cases hout : f.inOutput = true
  · have hround := hr f hf (by simpa using (Bool.and_eq_true_iff.mp hout).1)
    have hname := Casing.beq_toWire hround.name hid
    rw [hwire] at hname
    change (f.inOutput && f.isRequired && (Casing.camel.toWire f.sourceName == "id") && _) = _
    rw [hname]
    rfl
  · simp [hout]

variable {roots : List Record}

theorem namesRoundTrip_of_interface? (h : s.RoundTrips roots) {name : String} {r : Record}
    (hr : s.interface? name = some r) : NamesRoundTrip r.fields :=
  h.records r (by simp [Setting.knownRecords, Setting.mem_of_interface? hr])

theorem namesRoundTrip_of_record? (h : s.RoundTrips roots) {name : String} {r : Record}
    (hr : s.record? name = some r) : NamesRoundTrip r.fields := by
  have hm := List.mem_of_find?_eq_some hr
  rw [List.mem_reverse, List.mem_append] at hm
  exact h.records r (by rcases hm with hm | hm <;> simp [Setting.knownRecords, hm])

theorem namesRoundTrip_of_catalogue (h : s.RoundTrips roots) {key : String} {r : Record}
    (hr : Entries.get? s.catalogue.records key = some r) : NamesRoundTrip r.fields := by
  have hm : r ∈ s.catalogue.records.map Prod.snd := List.mem_map_of_mem (Entries.mem_of_get? hr)
  exact h.records r (by simp only [Setting.knownRecords, List.mem_append]; tauto)

theorem namesRoundTrip_of_elementRecord? (h : s.RoundTrips roots) {element : HostType} {r : Record}
    (hr : elementRecord? s element = some r) : NamesRoundTrip r.fields := by
  unfold elementRecord? at hr
  split at hr
  · exact namesRoundTrip_of_catalogue h hr
  · exact namesRoundTrip_of_record? h hr
  · cases hr

theorem namesRoundTrip_of_kind (h : s.RoundTrips roots) (kind : String) :
    NamesRoundTrip (kindOf s kind).fields := by
  unfold kindOf
  cases hk : Entries.get? s.catalogue.connections kind with
  | none => exact fun f hf => absurd hf List.not_mem_nil
  | some k => exact h.connections k (List.mem_map_of_mem (Entries.mem_of_get? hk))

theorem mirrors_ensureInterface (h : s.RoundTrips roots) (hw : w.Mirrors w') (name : String) :
    Mirrors Eq (ensureInterface s.verbatim w name) (ensureInterface s.camel w' name) := by
  refine mirrors_type? fun found => ?_
  rcases found with _ | t
  · by_cases hm : isMarker name = true
    · simp only [hm, if_true]
      exact mirrors_markers
    · simp only [hm]
      have hi : s.camel.interface? name = s.verbatim.interface? name := rfl
      rw [hi]
      cases hr : s.verbatim.interface? name with
      | none => exact mirrors_throw _
      | some r => exact mirrors_discard (mirrors_interface hw (namesRoundTrip_of_interface? h hr))
  · cases t with
    | interface t => exact mirrors_pure rfl
    | _ => exact mirrors_throw _

theorem mirrors_objectNamed (h : s.RoundTrips roots) (hw : w.Mirrors w') (name : String)
    (interfaces : List String) {r : Record} (hr : NamesRoundTrip r.fields) :
    Mirrors Eq (objectNamed s.verbatim w name interfaces r) (objectNamed s.camel w' name interfaces r) := by
  refine mirrors_type? fun found => ?_
  rcases found with _ | t
  · refine mirrors_bind (mirrors_add _) fun _ _ _ => mirrors_bind (mirrors_outputFields hw name hr) ?_
    rintro fields _ ⟨rfl, -⟩
    refine mirrors_guard (by simp) rfl ?_
    refine mirrors_bind (mirrors_forM fun i _ => mirrors_ensureInterface h hw i) fun _ _ _ => ?_
    exact mirrors_bind (mirrors_replace (.object
        { name := name, description := r.description, fields, interfaces := interfaces }))
      fun _ _ _ => mirrors_pure rfl
  · cases t with
    | object t => exact mirrors_pure rfl
    | _ => exact mirrors_throw _

/-- The part of a connection type that all kinds share, in camel case. -/
theorem connectionHead_camel (r : Record) :
    connectionHead s.camel r = (connectionHead s.verbatim r).map WireField.camel := by
  have hedges : Casing.camel.toWire "edges" = "edges" := by decide
  simp only [connectionHead, List.map_cons, List.map_nil, WireField.camel, WireField.plain, hedges]
  rfl

theorem edgeType_camel (r : Record) (cursor : TypeRef) :
    (WireType.object (edgeType r cursor)).camel = .object (edgeType r cursor) := by
  have hnode : Casing.camel.toWire "node" = "node" := by decide
  have hcursor : Casing.camel.toWire "cursor" = "cursor" := by decide
  simp only [WireType.camel, edgeType, List.map_cons, List.map_nil, WireField.camel, WireField.plain, hnode,
    hcursor]

theorem mirrors_connection (h : s.RoundTrips roots) (hw : w.Mirrors w') (kind : String) (element : HostType) :
    Mirrors Eq (connection s.verbatim w kind element) (connection s.camel w' kind element) := by
  have he : elementRecord? s.camel element = elementRecord? s.verbatim element := rfl
  have hcatalogue : s.camel.catalogue = s.verbatim.catalogue := rfl
  unfold connection
  rw [he]
  cases hr : elementRecord? s.verbatim element with
  | none => exact mirrors_throw _
  | some r =>
    have hfields : NamesRoundTrip r.fields := namesRoundTrip_of_elementRecord? (s := s) h hr
    refine mirrors_type? fun found => ?_
    rcases found with _ | t
    · refine mirrors_guard (by rw [hasNodeId_camel hfields]) rfl ?_
      refine mirrors_bind mirrors_markers fun _ _ _ => mirrors_bind (mirrors_modify fun _ => rfl) fun _ _ _ => ?_
      refine mirrors_bind (mirrors_add (connectionType s.verbatim kind r [])) fun _ _ _ => ?_
      refine mirrors_bind (mirrors_objectNamed h hw _ _ hfields) fun _ _ _ => ?_
      refine mirrors_bind (mirrors_scalar "String") ?_
      rintro cursor _ rfl
      have hedge := mirrors_addUnlessPresent (.object (edgeType r cursor))
      rw [edgeType_camel] at hedge
      refine mirrors_bind hedge fun _ _ _ => ?_
      refine mirrors_bind (mirrors_outputFields hw _ (namesRoundTrip_of_kind h kind)) ?_
      rintro fields _ ⟨rfl, -⟩
      have hdone := mirrors_replace (connectionType s.verbatim kind r (connectionHead s.verbatim r ++ fields))
      simp only [WireType.camel, connectionType, List.map_append, ← connectionHead_camel] at hdone
      exact mirrors_bind hdone fun _ _ _ => mirrors_pure rfl
    · cases t with
      | object t =>
        refine mirrors_get fun d => ?_
        have hnoted : d.camel.connectionFields = d.connectionFields := rfl
        simp only [hnoted, hcatalogue]
        cases Entries.get? d.connectionFields (r.name ++ "Connection") with
        | none => exact mirrors_pure rfl
        | some defined =>
          simp only
          split
          · exact mirrors_pure rfl
          · exact mirrors_throw _
      | _ => exact mirrors_throw _

theorem mirrors_namedOutput (h : s.RoundTrips roots) (hw : w.Mirrors w') (name : String) :
    Mirrors Eq (namedOutput s.verbatim w name) (namedOutput s.camel w' name) := by
  have hi : s.camel.interface? name = s.verbatim.interface? name := rfl
  have hr : s.camel.record? name = s.verbatim.record? name := rfl
  refine mirrors_type? fun found => ?_
  rcases found with _ | t
  · rw [hi, hr]
    cases hfound : s.verbatim.interface? name with
    | some r => exact mirrors_interface hw (namesRoundTrip_of_interface? (s := s) h hfound)
    | none =>
      cases hfound : s.verbatim.record? name with
      | some r => exact mirrors_objectNamed h hw _ _ (namesRoundTrip_of_record? (s := s) h hfound)
      | none =>
        simp only
        split
        · exact mirrors_bind mirrors_markers fun _ _ _ => mirrors_pure rfl
        · exact mirrors_throw _
  · cases t with
    | inputObject t => exact mirrors_throw _
    | _ => exact mirrors_pure rfl

theorem mirrors_namedInput (h : s.RoundTrips roots) (hw : w.Mirrors w') (name : String) :
    Mirrors Eq (namedInput s.verbatim w name) (namedInput s.camel w' name) := by
  have hsame : (s.camel.record? name).or (s.camel.interface? name) =
      (s.verbatim.record? name).or (s.verbatim.interface? name) := rfl
  unfold namedInput
  rw [hsame]
  refine mirrors_type? fun found => ?_
  cases hfound : (s.verbatim.record? name).or (s.verbatim.interface? name) with
  | none =>
    rcases found with _ | t
    · exact mirrors_throw _
    · cases t with
      | object t => exact mirrors_throw _
      | interface t => exact mirrors_throw _
      | _ => exact mirrors_pure rfl
  | some r =>
    have hinput : Mirrors Eq (inputObject s.verbatim w r) (inputObject s.camel w' r) := by
      apply mirrors_inputObject hw
      rcases Option.or_eq_some_iff.mp hfound with hfound | ⟨-, hfound⟩
      · exact namesRoundTrip_of_record? (s := s) h hfound
      · exact namesRoundTrip_of_interface? (s := s) h hfound
    rcases found with _ | t
    · exact hinput
    · cases t with
      | object t => exact hinput
      | interface t => exact hinput
      | _ => exact mirrors_pure rfl

end Build

namespace Walker

variable {s : Setting} {roots : List Record} {w w' : Walker}

theorem mirrors_step (h : s.RoundTrips roots) (hw : w.Mirrors w') :
    (step s.verbatim w).Mirrors (step s.camel w') where
  output t := by
    cases t with
    | scalar hostName => exact Build.mirrors_scalar hostName
    | enum key =>
      simp only [step, Setting.verbatim, Setting.camel]
      cases Entries.get? s.catalogue.enums key with
      | none => exact Build.mirrors_throw _
      | some e => exact Build.mirrors_enum e
    | list element =>
      refine Build.mirrors_bind (hw.output element) ?_
      rintro ref _ rfl
      exact Build.mirrors_pure rfl
    | optional inner => exact hw.output inner
    | record key =>
      simp only [step, Setting.verbatim, Setting.camel]
      cases hr : Entries.get? s.catalogue.records key with
      | none => exact Build.mirrors_throw _
      | some r => exact Build.mirrors_objectNamed h hw _ _ (Build.namesRoundTrip_of_catalogue h hr)
    | connection kind element => exact Build.mirrors_connection h hw kind element
    | named name => exact Build.mirrors_namedOutput h hw name
  input t := by
    cases t with
    | scalar hostName => exact Build.mirrors_scalar hostName
    | enum key =>
      simp only [step, Setting.verbatim, Setting.camel]
      cases Entries.get? s.catalogue.enums key with
      | none => exact Build.mirrors_throw _
      | some e => exact Build.mirrors_enum e
    | list element =>
      refine Build.mirrors_bind (hw.input element) ?_
      rintro ref _ rfl
      exact Build.mirrors_pure rfl
    | optional inner => exact hw.input inner
    | record key =>
      simp only [step, Setting.verbatim, Setting.camel]
      cases hr : Entries.get? s.catalogue.records key with
      | none => exact Build.mirrors_throw _
      | some r => exact Build.mirrors_inputObject hw (Build.namesRoundTrip_of_catalogue h hr)
    | connection kind element => exact Build.mirrors_throw _
    | named name => exact Build.mirrors_namedInput h hw name

theorem mirrors_within (h : s.RoundTrips roots) (steps : Nat) :
    (within s.verbatim steps).Mirrors (within s.camel steps) := by
  induction steps with
  | zero => exact ⟨fun _ => Build.mirrors_throw _, fun _ => Build.mirrors_throw _⟩
  | succ steps ih => exact mirrors_step h ih

end Walker

namespace Build

variable {s : Setting} {roots : List Record} {w w' : Walker}

theorem mirrors_seeds (h : s.RoundTrips roots) (hw : w.Mirrors w') :
    Mirrors Eq (seeds s.verbatim w) (seeds s.camel w') := by
  have hknown : ∀ r ∈ s.options.interfaces ++ s.options.queryTypes ++ s.options.mutationTypes,
      NamesRoundTrip r.fields := by
    intro r hr
    apply h.records
    simp only [Setting.knownRecords, List.mem_append] at hr ⊢
    tauto
  simp only [List.forall_mem_append] at hknown
  obtain ⟨⟨hinterfaces, hqueries⟩, hmutations⟩ := hknown
  refine mirrors_bind (mirrors_forM fun e _ => mirrors_discard (mirrors_enum e)) fun _ _ _ => ?_
  refine mirrors_bind (mirrors_forM fun r hr => mirrors_discard (mirrors_interface hw (hinterfaces r hr)))
    fun _ _ _ => ?_
  refine mirrors_bind (mirrors_forM fun r hr => mirrors_discard (mirrors_objectNamed h hw _ _ (hqueries r hr)))
    fun _ _ _ => ?_
  exact mirrors_forM fun r hr => mirrors_discard (mirrors_inputObject hw (hmutations r hr))

theorem mirrors_root (h : s.RoundTrips roots) (hw : w.Mirrors w') (name : String) {r : Record}
    (hr : r ∈ roots) : Mirrors Eq (root s.verbatim w name r) (root s.camel w' name r) :=
  mirrors_bind (mirrors_objectNamed h hw _ _ (h.records r (List.mem_append_left _ hr)))
    fun _ _ _ => mirrors_pure rfl

theorem mirrors_optionalRoot (h : s.RoundTrips roots) (hw : w.Mirrors w') (name : String) {r : Option Record}
    (hr : ∀ r' ∈ r, r' ∈ roots) :
    Mirrors Eq (optionalRoot s.verbatim w name r) (optionalRoot s.camel w' name r) := by
  cases r with
  | none => exact mirrors_pure rfl
  | some r =>
    refine mirrors_bind (mirrors_root h hw name (hr r rfl)) ?_
    rintro out _ rfl
    exact mirrors_pure rfl

theorem mirrors_schema {roots : RootRecords} (h : s.RoundTrips (Model.rootList roots)) (hw : w.Mirrors w') :
    Mirrors Eq (schema s.verbatim w roots) (schema s.camel w' roots) := by
  refine mirrors_bind (mirrors_seeds h hw) fun _ _ _ => ?_
  refine mirrors_bind (mirrors_root h hw _ List.mem_cons_self) ?_
  rintro query _ rfl
  refine mirrors_bind (mirrors_optionalRoot h hw _ fun r hr => ?_) ?_
  · simp [Model.rootList, Option.mem_def.mp hr]
  rintro mutation _ rfl
  refine mirrors_bind (mirrors_optionalRoot h hw _ fun r hr => ?_) ?_
  · simp [Model.rootList, Option.mem_def.mp hr]
  rintro subscription _ rfl
  exact mirrors_pure rfl

end Build

namespace Model

/-- Where all names can be turned back, a build in camel case ends like the one that keeps host names, and its
model is the other one with the names of fields, arguments and input fields in camel case. -/
theorem build_camel {s : Setting} {roots : RootRecords} (h : s.RoundTrips (rootList roots)) :
    build s.camel roots =
      match build s.verbatim roots with
      | .ok m => .ok m.camel
      | .error e => .error e.camel := by
  have hsteps : s.camel.steps (rootList roots) = s.verbatim.steps (rootList roots) := rfl
  have hrun := Build.mirrors_schema h (Walker.mirrors_within h (s.verbatim.steps (rootList roots))) {}
  rw [Draft.camel_empty] at hrun
  unfold build Setting.walker
  rw [hsteps]
  unfold Build.outcome at hrun
  generalize (Build.schema s.verbatim _ roots).run.run {} = p at hrun ⊢
  generalize (Build.schema s.camel _ roots).run.run {} = q at hrun ⊢
  cases hrun with
  | ok heq => cases heq; rfl
  | error => rfl

/-- A root that asks for the books on sale by an author. -/
def saleRoots : RootRecords :=
  { query := { name := "Shop"
               fields := [{ name := "books_on_sale", type := bookPages
                            arguments := [{ name := "for_author", type := .scalar "String" }] }] } }

theorem build_camel_sale : (bookshop []).RoundTrips (rootList saleRoots) ∧
    ∃ m, build (bookshop []).verbatim saleRoots = .ok m ∧ build (bookshop []).camel saleRoots = .ok m.camel := by
  have hnames : (bookshop []).RoundTrips (rootList saleRoots) := by decide
  obtain ⟨m, hm⟩ : ∃ m, build (bookshop []).verbatim saleRoots = .ok m := ⟨_, rfl⟩
  have hcamel := build_camel hnames
  rw [hm] at hcamel
  exact ⟨hnames, m, hm, hcamel⟩

end Model

end RecordGraph
