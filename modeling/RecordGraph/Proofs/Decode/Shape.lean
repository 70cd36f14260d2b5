import RecordGraph.Proofs.Build.Origin
import RecordGraph.Proofs.Decode.Run
import RecordGraph.Proofs.Dictionary
/-! The shape of decoded values. What decoding answers for a type has the form that the type declares, at
every depth: a member of an enum is one of its own, a list is decoded item by item, and the mapping for an
input object has the host names of the fields that are given or have a default, in the order declared. Main
statement: decoding answers a value exactly if it has this shape for what stood on the wire. -/

namespace RecordGraph

/-- What is decoded for a field: what the object has for it, else its default. -/
def InputField.given? (f : InputField) (entries : Entries WireValue) : Option WireValue :=
  (Entries.get? entries f.name).or f.default

namespace EnumType

/-- What an enum reads is a member of it. -/
theorem member_of_parse {t : EnumType} {w : WireValue} {v : Value} (h : t.parse w = .ok v) :
    ∃ member, (w = .member member ∨ w = .string member) ∧ member ∈ t.members ∧
      v = .member t.name member := by
  have hcheck {member : String} (h : (t.check member).map (fun _ => Value.member t.name member) = .ok v) :
      member ∈ t.members ∧ v = .member t.name member := by
    unfold check at h
    split at h
    · rename_i hmember
      cases h
      exact ⟨List.contains_iff_mem.mp hmember, rfl⟩
    · cases h
  cases w with
  | member name => exact ⟨name, .inl rfl, hcheck h⟩
  | string name => exact ⟨name, .inr rfl, hcheck h⟩
  | _ => cases h

end EnumType

namespace Model

mutual

/-- A value has the shape of a type, for what stood on the wire. -/
inductive Conforms (m : Model) : TypeRef → WireValue → Value → Prop
  | null {type : TypeRef} : Conforms m type .null .null
  | nonNull {inner : TypeRef} {w : WireValue} {v : Value} (h : Conforms m inner w v) :
      Conforms m (.nonNull inner) w v
  | list {inner : TypeRef} {ws : List WireValue} {vs : List Value} (h : ItemsConform m inner ws vs) :
      Conforms m (.list inner) (.list ws) (.list vs)
  /-- A single value stands for a list of one. -/
  | single {inner : TypeRef} {w : WireValue} {v : Value} (hnull : w ≠ .null) (hw : ∀ ws, w ≠ .list ws)
      (h : Conforms m inner w v) : Conforms m (.list inner) w (.list [v])
  | scalar {name : String} {t : ScalarType} {w : WireValue} {v : Value} (hnull : w ≠ .null)
      (ht : m.type? name = some (.scalar t)) (h : t.codec.parse w = .ok v) : Conforms m (.named name) w v
  /-- A member of exactly this enum. -/
  | enum {name member : String} {t : EnumType} {w : WireValue} (ht : m.type? name = some (.enum t))
      (hw : w = .member member ∨ w = .string member) (h : member ∈ t.members) :
      Conforms m (.named name) w (.member name member)
  | mapping {name : String} {t : InputObjectType} {entries : List (String × WireValue)}
      {fields : List (String × Value)} (ht : m.type? name = some (.inputObject t)) (hl : t.loader = none)
      (h : FieldsConform m entries t.fields fields) : Conforms m (.named name) (.object entries) (.mapping fields)
  /-- A loader is handed the fields in the shape that the mapping would have. -/
  | loaded {name : String} {t : InputObjectType} {entries : List (String × WireValue)}
      {fields : List (String × Value)} {loader : Loader} {v : Value}
      (ht : m.type? name = some (.inputObject t)) (hl : t.loader = some loader)
      (h : FieldsConform m entries t.fields fields) (hv : loader fields = .ok v) :
      Conforms m (.named name) (.object entries) v

/-- The items of a list, one by one. -/
inductive ItemsConform (m : Model) : TypeRef → List WireValue → List Value → Prop
  | nil {inner : TypeRef} : ItemsConform m inner [] []
  | cons {inner : TypeRef} {w : WireValue} {v : Value} {ws : List WireValue} {vs : List Value}
      (h : Conforms m inner w v) (hrest : ItemsConform m inner ws vs) : ItemsConform m inner (w :: ws) (v :: vs)

/-- The fields of an input object in the order declared, by host name: those for which there is something to
decode, and no others. -/
inductive FieldsConform (m : Model) :
    List (String × WireValue) → List InputField → List (String × Value) → Prop
  | nil {entries : List (String × WireValue)} : FieldsConform m entries [] []
  | given {entries : List (String × WireValue)} {f : InputField} {rest : List InputField} {w : WireValue}
      {v : Value} {fields : List (String × Value)} (hw : f.given? entries = some w) (h : Conforms m f.type w v)
      (hrest : FieldsConform m entries rest fields) :
      FieldsConform m entries (f :: rest) ((f.hostName, v) :: fields)
  | absent {entries : List (String × WireValue)} {f : InputField} {rest : List InputField}
      {fields : List (String × Value)} (hw : f.given? entries = none)
      (hrest : FieldsConform m entries rest fields) : FieldsConform m entries (f :: rest) fields

end

/-- Enums are registered under their names, and the fields of an input object are told apart by host name. -/
structure Distinct (m : Model) : Prop where
  enum : ∀ {name t}, m.type? name = some (.enum t) → t.name = name
  inputObject : ∀ {name t}, m.type? name = some (.inputObject t) → (t.fields.map InputField.hostName).Nodup

/-! Built models. -/

theorem distinct_of_build {s : Setting} {roots : RootRecords} {m : Model} (h : build s roots = .ok m) :
    m.Distinct := by
  obtain ⟨d, -, -, horigin⟩ := origins_of_build h
  constructor
  · intro name t ht
    exact (horigin ht).1.symm
  · intro name t ht
    obtain ⟨-, ho⟩ := horigin ht
    cases ho with
    | marker _ _ _ hmem _ => simp [Build.markerTypes] at hmem
    | @inputObject r fields _ hf hd =>
      have hnames : fields.map InputField.name = (fields.map InputField.hostName).map s.wireName := by
        rw [List.map_map]
        refine List.map_congr_left fun f hfield => ?_
        obtain ⟨_, -, hform⟩ := exists_of_mem_right hf hfield
        exact hform.name.trans (congrArg s.wireName hform.hostName.symm)
      rw [hnames] at hd
      exact hd.of_map

end Model

namespace Bounded

variable {α β : Type}

/-- A decoding that gives a value after another had a value from that. -/
theorem exists_of_bind {x : Bounded α} {f : α → Bounded β} {b : β} (h : (x >>= f).run = some (.ok b)) :
    ∃ a, x.run = some (.ok a) ∧ (f a).run = some (.ok b) := by
  rw [run_bind] at h
  split at h
  · rename_i a ha
    exact ⟨a, ha, h⟩
  · cases h
  · cases h

theorem run_bind_of_ok {x : Bounded α} {f : α → Bounded β} {a : α} (h : x.run = some (.ok a)) :
    (x >>= f).run = (f a).run := by
  rw [run_bind, h]

theorem run_lift (r : Except FieldError α) : (liftM r : Bounded α).run = some r := by
  cases r <;> rfl

/-- What a codec answered, when its errors count as those of a field. -/
theorem ok_of_codec {r : Except CodecError α} {a : α}
    (h : (liftM (r.mapError FieldError.codec) : Bounded α).run = some (.ok a)) : r = .ok a := by
  rw [run_lift] at h
  cases r with
  | ok b => exact congrArg Except.ok (Except.ok.inj (Option.some.inj h))
  | error e => cases h

end Bounded

namespace Model

variable {m : Model} {x : TypeRef → WireValue → Bounded Value} {entries : Entries WireValue}

/-! A step of decoding, given that those it calls for have the shape they should. -/

theorem itemsConform_of_mapM {inner : TypeRef}
    (hx : ∀ w v, (x inner w).run = some (.ok v) → m.Conforms inner w v) {ws : List WireValue}
    {vs : List Value} (h : (ws.mapM (x inner)).run = some (.ok vs)) : m.ItemsConform inner ws vs := by
  induction ws generalizing vs with
  | nil =>
    cases h
    exact .nil
  | cons w ws ih =>
    rw [List.mapM_cons] at h
    obtain ⟨v, hv, h⟩ := Bounded.exists_of_bind h
    obtain ⟨rest, hrest, h⟩ := Bounded.exists_of_bind h
    cases h
    exact .cons (hx w v hv) (ih hrest)

/-- Fields are added one after the other, each under a host name of its own. -/
theorem fieldsConform_of_decodeFields
    (hx : ∀ t w v, (x t w).run = some (.ok v) → m.Conforms t w v) {fields : List InputField}
    (hn : (fields.map InputField.hostName).Nodup) {decoded out : List (String × Value)}
    (hnew : ∀ f ∈ fields, Entries.get? decoded f.hostName = none)
    (h : (decodeFields x entries decoded fields).run = some (.ok out)) :
    ∃ added, out = decoded ++ added ∧ m.FieldsConform entries fields added := by
  induction fields generalizing decoded with
  | nil =>
    cases h
    exact ⟨[], (List.append_nil _).symm, .nil⟩
  | cons f fields ih =>
    rw [List.map_cons, List.nodup_cons] at hn
    rw [List.forall_mem_cons] at hnew
    unfold decodeFields at h
    split at h
    · rename_i w hw
      obtain ⟨v, hv, h⟩ := Bounded.exists_of_bind h
      rw [Entries.insert_of_get?_eq_none hnew.1] at h
      have hnext : ∀ g ∈ fields, Entries.get? (decoded ++ [(f.hostName, v)]) g.hostName = none := by
        intro g hg
        have hne : f.hostName ≠ g.hostName := fun e => hn.1 (e ▸ List.mem_map_of_mem hg)
        rw [Entries.get?_append, hnew.2 g hg, Entries.get?_cons, if_neg hne]
        rfl
      obtain ⟨added, rfl, hadded⟩ := ih hn.2 hnext h
      exact ⟨(f.hostName, v) :: added, by simp, .given hw (hx _ w v hv) hadded⟩
    · rename_i hw
      obtain ⟨added, hout, hadded⟩ := ih hn.2 hnew.2 h
      exact ⟨added, hout, .absent hw hadded⟩

theorem conforms_of_decodeNamed (hm : m.Distinct)
    (hx : ∀ t w v, (x t w).run = some (.ok v) → m.Conforms t w v) {name : String} {w : WireValue} {v : Value}
    (hnull : w ≠ .null) (h : (m.decodeNamed x name w).run = some (.ok v)) : m.Conforms (.named name) w v := by
  unfold decodeNamed at h
  split at h
  · rename_i t ht
    exact .scalar hnull ht (Bounded.ok_of_codec h)
  · rename_i t ht
    obtain ⟨member, hw, hmember, rfl⟩ := EnumType.member_of_parse (Bounded.ok_of_codec h)
    rw [hm.enum ht]
    exact .enum ht hw hmember
  · rename_i t ht
    unfold decodeObject at h
    split at h
    · rename_i entries
      obtain ⟨out, hout, h⟩ := Bounded.exists_of_bind h
      rw [Bounded.run_lift] at h
      obtain ⟨fields, rfl, hfields⟩ :=
        fieldsConform_of_decodeFields hx (hm.inputObject ht) (fun _ _ => rfl) hout
      unfold load at h
      split at h
      · rename_i loader hl
        exact .loaded ht hl hfields (Option.some.inj h)
      · rename_i hl
        cases h
        exact .mapping ht hl hfields
    · cases h
  · cases h
  · cases h

/-- Whatever decoding answers, within however many steps, has the shape of its type. -/
theorem conforms_of_decodeWithin (hm : m.Distinct) {steps : Nat} {type : TypeRef} {w : WireValue} {v : Value}
    (h : (m.decodeWithin steps type w).run = some (.ok v)) : m.Conforms type w v := by
  induction steps generalizing type w v with
  | zero => cases h
  | succ steps ih =>
    have hsingle {inner : TypeRef} (hnull : w ≠ .null) (hw : ∀ ws, w ≠ .list ws)
        (h : (do return Value.list [← m.decodeWithin steps inner w] : Bounded Value).run = some (.ok v)) :
        m.Conforms (.list inner) w v := by
      obtain ⟨item, hitem, h⟩ := Bounded.exists_of_bind h
      cases h
      exact .single hnull hw (ih hitem)
    cases type with
    | nonNull inner => exact .nonNull (ih h)
    | list inner =>
      cases w with
      | null =>
        cases h
        exact .null
      | list ws =>
        obtain ⟨vs, hvs, h⟩ := Bounded.exists_of_bind h
        cases h
        exact .list (itemsConform_of_mapM (fun _ _ => ih) hvs)
      | _ => exact hsingle nofun nofun h
    | named name =>
      cases w with
      | null =>
        cases h
        exact .null
      | _ => exact conforms_of_decodeNamed hm (fun _ _ _ => ih) nofun h

/-! Conversely, whatever has the shape is decoded, and so there is one value of the shape at most. -/

theorem decodeFields_given {f : InputField} {rest : List InputField} {w : WireValue} {v : Value}
    {decoded : List (String × Value)} (hw : f.given? entries = some w) (hv : (x f.type w).run = some (.ok v)) :
    (decodeFields x entries decoded (f :: rest)).run =
      (decodeFields x entries (Entries.insert decoded f.hostName v) rest).run := by
  rw [InputField.given?] at hw
  rw [decodeFields, hw]
  exact Bounded.run_bind_of_ok hv

theorem decodeFields_absent {f : InputField} {rest : List InputField} {decoded : List (String × Value)}
    (hw : f.given? entries = none) :
    decodeFields x entries decoded (f :: rest) = decodeFields x entries decoded rest := by
  rw [InputField.given?] at hw
  rw [decodeFields, hw]

theorem decodes_null (m : Model) (type : TypeRef) :
    ∃ steps, (m.decodeWithin steps type .null).run = some (.ok .null) := by
  induction type with
  | named name => exact ⟨1, rfl⟩
  | list inner => exact ⟨1, rfl⟩
  | nonNull inner ih =>
    obtain ⟨steps, h⟩ := ih
    exact ⟨steps + 1, h⟩

theorem decodeWithin_named {name : String} {w : WireValue} (hnull : w ≠ .null) (steps : Nat) :
    m.decodeWithin (steps + 1) (.named name) w = m.decodeNamed (m.decodeWithin steps) name w := by
  cases w with
  | null => exact absurd rfl hnull
  | _ => rfl

theorem decodeNamed_object {name : String} {t : InputObjectType} {fields : List (String × Value)}
    (ht : m.type? name = some (.inputObject t))
    (h : (decodeFields x entries [] t.fields).run = some (.ok fields)) :
    (m.decodeNamed x name (.object entries)).run = some (load t.loader fields) := by
  simp only [decodeNamed, ht, decodeObject]
  rw [Bounded.run_bind_of_ok h, Bounded.run_lift]

/-- The keys of the mapping for an input object are the host names of the fields for which there is something
to decode, in the order declared. -/
theorem FieldsConform.names {entries : List (String × WireValue)} {declared : List InputField}
    {fields : List (String × Value)} : m.FieldsConform entries declared fields →
      fields.map Prod.fst = (declared.filter fun f => (f.given? entries).isSome).map InputField.hostName
  | .nil => rfl
  | .given hw _ hrest => by
    rw [List.map_cons, hrest.names, List.filter_cons, if_pos (by rw [hw]; rfl), List.map_cons]
  | .absent hw hrest => by rw [hrest.names, List.filter_cons, if_neg (by rw [hw]; exact nofun)]

theorem FieldsConform.nodup {entries : List (String × WireValue)} {declared : List InputField}
    {fields : List (String × Value)} (h : m.FieldsConform entries declared fields)
    (hn : (declared.map InputField.hostName).Nodup) : (fields.map Prod.fst).Nodup := by
  rw [h.names]
  exact hn.sublist (List.filter_sublist.map _)

mutual

theorem Conforms.decodes (hm : m.Distinct) {type : TypeRef} {w : WireValue} {v : Value} :
    m.Conforms type w v → ∃ steps, (m.decodeWithin steps type w).run = some (.ok v)
  | .null => decodes_null m type
  | .nonNull h =>
    have ⟨steps, hv⟩ := h.decodes hm
    ⟨steps + 1, hv⟩
  | .list h =>
    have ⟨steps, hvs⟩ := h.decodes hm
    ⟨steps + 1, Bounded.run_bind_of_ok hvs⟩
  | .single hnull hw h => by
    obtain ⟨steps, hv⟩ := h.decodes hm
    refine ⟨steps + 1, ?_⟩
    cases w with
    | null => exact absurd rfl hnull
    | list ws => exact absurd rfl (hw ws)
    | _ => exact Bounded.run_bind_of_ok hv
  | .scalar hnull ht h => ⟨1, by
    rw [decodeWithin_named hnull, decodeNamed, ht]
    simp only [h]
    rfl⟩
  | .enum ht hw h => ⟨1, by
    have hcheck := List.contains_iff_mem.mpr h
    rcases hw with rfl | rfl <;>
    · change (m.decodeNamed (m.decodeWithin 0) _ _).run = _
      rw [decodeNamed, ht, ← hm.enum ht]
      simp only [EnumType.parse, EnumType.check, hcheck, if_true]
      rfl⟩
  | .mapping ht hl h => by
    obtain ⟨steps, hfields⟩ := h.decodes hm
    refine ⟨steps + 1, ?_⟩
    change (m.decodeNamed (m.decodeWithin steps) _ _).run = _
    rw [decodeNamed_object ht (hfields [] (h.nodup (hm.inputObject ht))), hl]
    rfl
  | .loaded ht hl h hv => by
    obtain ⟨steps, hfields⟩ := h.decodes hm
    refine ⟨steps + 1, ?_⟩
    change (m.decodeNamed (m.decodeWithin steps) _ _).run = _
    rw [decodeNamed_object ht (hfields [] (h.nodup (hm.inputObject ht))), hl]
    exact congrArg some hv

theorem ItemsConform.decodes (hm : m.Distinct) {inner : TypeRef} {ws : List WireValue} {vs : List Value} :
    m.ItemsConform inner ws vs → ∃ steps, (ws.mapM (m.decodeWithin steps inner)).run = some (.ok vs)
  | .nil => ⟨0, rfl⟩
  | .cons h hrest => by
    obtain ⟨n, hv⟩ := h.decodes hm
    obtain ⟨k, hvs⟩ := hrest.decodes hm
    have hv' := le_decodeWithin (Nat.le_max_left n k) _ _ _ hv
    have hvs' := Bounded.le_mapM (fun w => le_decodeWithin (Nat.le_max_right n k) inner w) _ _ hvs
    refine ⟨max n k, ?_⟩
    rw [List.mapM_cons, Bounded.run_bind_of_ok hv', Bounded.run_bind_of_ok hvs']
    rfl

theorem FieldsConform.decodes (hm : m.Distinct) {entries : List (String × WireValue)}
    {declared : List InputField} {fields : List (String × Value)} :
    m.FieldsConform entries declared fields → ∃ steps, ∀ decoded : List (String × Value),
      ((decoded ++ fields).map Prod.fst).Nodup →
        (decodeFields (m.decodeWithin steps) entries decoded declared).run = some (.ok (decoded ++ fields))
  | .nil => ⟨0, fun decoded _ => by rw [List.append_nil]; rfl⟩
  | .given (f := f) hw h hrest => by
    obtain ⟨n, hv⟩ := h.decodes hm
    obtain ⟨k, hvs⟩ := hrest.decodes hm
    have hv' := le_decodeWithin (Nat.le_max_left n k) _ _ _ hv
    refine ⟨max n k, fun decoded hn => ?_⟩
    have hnew : Entries.get? decoded f.hostName = none := by
      rw [List.map_append, List.map_cons, List.nodup_middle, List.nodup_cons] at hn
      exact Entries.get?_eq_none.mpr fun hmem => hn.1 (List.mem_append_left _ hmem)
    rw [List.append_cons] at hn ⊢
    rw [decodeFields_given hw hv', Entries.insert_of_get?_eq_none hnew]
    exact le_decodeFields (fun t v => le_decodeWithin (Nat.le_max_right n k) t v) _ _ _ _ (hvs _ hn)
  | .absent hw hrest =>
    have ⟨steps, hvs⟩ := hrest.decodes hm
    ⟨steps, fun decoded hn => by rw [decodeFields_absent hw]; exact hvs decoded hn⟩

end

/-- Decoding gives exactly the values that have the shape. -/
theorem decodes_iff_conforms (hm : m.Distinct) {type : TypeRef} {w : WireValue} {v : Value} :
    (∃ steps, (m.decodeWithin steps type w).run = some (.ok v)) ↔ m.Conforms type w v :=
  ⟨fun ⟨_, h⟩ => conforms_of_decodeWithin hm h, Conforms.decodes hm⟩

end Model

end RecordGraph
