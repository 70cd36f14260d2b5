import RecordGraph.Proofs.Decode.Shape
/-! The keys of decoded values. No key of the wire is left in a value of some shape: all are host names of
declared fields, at every depth, except where a scalar reads mappings or a loader makes its own of what was
decoded. Of the scalars that every schema knows, only dictionaries are read as mappings. -/

namespace RecordGraph

namespace Value

mutual

/-- The keys of all mappings in a value, however deep. -/
def keys : Value → List String
  | .list items => keysOfItems items
  | .mapping entries => keysOfEntries entries
  | _ => []

/-- The keys in the items of a list. -/
def keysOfItems : List Value → List String
  | [] => []
  | item :: rest => keys item ++ keysOfItems rest

/-- The keys of a mapping and those in its values. -/
def keysOfEntries : List (String × Value) → List String
  | [] => []
  | (key, value) :: rest => key :: (keys value ++ keysOfEntries rest)

end

end Value

/-- A scalar reads mappings of some wire values. -/
def ScalarType.ReadsMappings (t : ScalarType) : Prop := ∃ w v, t.codec.parse w = .ok v ∧ v.keys ≠ []

namespace ScalarCodec

/-- No value that the codec reads has a key. -/
def Flat (c : ScalarCodec) : Prop := ∀ {w v}, c.parse w = .ok v → v.keys = []

theorem flat_int : int.Flat := by
  intro w v h
  cases w with
  | number n =>
    simp only [int] at h
    split at h <;> cases h
    rfl
  | _ => cases h

theorem flat_float : float.Flat := by
  intro w v h
  cases w <;> cases h
  rfl

theorem flat_boolean : boolean.Flat := by
  intro w v h
  cases w <;> cases h
  rfl

theorem flat_string : string.Flat := by
  intro w v h
  cases w <;> cases h
  rfl

theorem flat_id : id.Flat := by
  intro w v h
  cases w with
  | string s =>
    simp only [id] at h
    cases hs : decodeId s <;> rw [hs] at h <;> cases h
    rfl
  | number n =>
    cases n <;> cases h
    rfl
  | _ => cases h

theorem flat_dateTime : dateTime.Flat := by
  intro w v h
  cases w with
  | string s =>
    simp only [dateTime] at h
    split at h <;> cases h
    rfl
  | _ => cases h

theorem keys_of_parseDecimal {text : String} {v : Value} (h : parseDecimal text = .ok v) : v.keys = [] := by
  unfold parseDecimal at h
  split at h <;> cases h
  rfl

theorem flat_decimal : decimal.Flat := by
  intro w v h
  cases w with
  | number n => exact keys_of_parseDecimal h
  | string s => exact keys_of_parseDecimal h
  | _ => cases h

end ScalarCodec

/-- Of the scalars that every schema knows, only dictionaries are read as mappings. -/
theorem dictionary_of_readsMappings {t : ScalarType} (ht : t ∈ defaultScalars) (h : t.ReadsMappings) :
    t.wireName = "Dictionary" := by
  obtain ⟨w, v, hv, hkeys⟩ := h
  have hflat : t.codec.Flat → t.wireName = "Dictionary" := fun hf => absurd (hf hv) hkeys
  simp only [defaultScalars, List.mem_cons, List.not_mem_nil, or_false] at ht
  rcases ht with rfl | rfl | rfl | rfl | rfl | rfl | rfl | rfl | rfl
  · exact hflat ScalarCodec.flat_int
  · exact hflat ScalarCodec.flat_int
  · exact hflat ScalarCodec.flat_float
  · exact hflat ScalarCodec.flat_boolean
  · exact hflat ScalarCodec.flat_string
  · exact hflat ScalarCodec.flat_id
  · exact hflat ScalarCodec.flat_dateTime
  · rfl
  · exact hflat ScalarCodec.flat_decimal

namespace Model

variable {m : Model}

/-- A key is the host name of a declared field of an input object. -/
def Declares (m : Model) (key : String) : Prop :=
  ∃ name t, m.type? name = some (.inputObject t) ∧ ∃ f ∈ t.fields, f.hostName = key

/-- A part of a value that is not shaped by its type: a scalar read a mapping, or a loader made it. -/
inductive Shapeless (m : Model) : TypeRef → Value → Value → Prop
  | scalar {name : String} {t : ScalarType} {v : Value} (ht : m.type? name = some (.scalar t))
      (h : t.ReadsMappings) : Shapeless m (.named name) v v
  | loaded {name : String} {t : InputObjectType} {v : Value} (ht : m.type? name = some (.inputObject t))
      (hl : t.loader.isSome) : Shapeless m (.named name) v v
  | nonNull {inner : TypeRef} {v part : Value} (h : Shapeless m inner v part) :
      Shapeless m (.nonNull inner) v part
  | item {inner : TypeRef} {vs : List Value} {v part : Value} (hv : v ∈ vs) (h : Shapeless m inner v part) :
      Shapeless m (.list inner) (.list vs) part
  | field {name : String} {t : InputObjectType} {fields : List (String × Value)} {f : InputField}
      {v part : Value} (ht : m.type? name = some (.inputObject t)) (hf : f ∈ t.fields)
      (hv : (f.hostName, v) ∈ fields) (h : Shapeless m f.type v part) :
      Shapeless m (.named name) (.mapping fields) part

mutual

/-- Every key in a value of some shape is declared, or stands in a part without. -/
theorem Conforms.keys {type : TypeRef} {w : WireValue} {v : Value} (key : String) :
    m.Conforms type w v → key ∈ v.keys →
      m.Declares key ∨ ∃ part, m.Shapeless type v part ∧ key ∈ part.keys
  | .null, hk => absurd hk List.not_mem_nil
  | .nonNull h, hk => (h.keys key hk).imp_right fun ⟨part, hpart, hk⟩ => ⟨part, .nonNull hpart, hk⟩
  | .list h, hk => (h.keys key hk).imp_right fun ⟨_, hv, part, hpart, hk⟩ => ⟨part, .item hv hpart, hk⟩
  | .single _ _ h, hk => by
    rw [Value.keys, Value.keysOfItems, Value.keysOfItems, List.append_nil] at hk
    exact (h.keys key hk).imp_right fun ⟨part, hpart, hk⟩ => ⟨part, .item List.mem_cons_self hpart, hk⟩
  | .scalar _ ht h, hk => .inr ⟨v, .scalar ht ⟨w, v, h, List.ne_nil_of_mem hk⟩, hk⟩
  | .enum _ _ _, hk => absurd hk List.not_mem_nil
  | .mapping ht _ h, hk => by
    rcases h.keys key hk with ⟨f, hf, rfl⟩ | hdeclared | ⟨f, hf, item, hv, part, hpart, hk⟩
    · exact .inl ⟨_, _, ht, f, hf, rfl⟩
    · exact .inl hdeclared
    · exact .inr ⟨part, .field ht hf hv hpart, hk⟩
  | .loaded ht hl _ _, hk => .inr ⟨v, .loaded ht (by rw [hl]; rfl), hk⟩

theorem ItemsConform.keys {inner : TypeRef} {ws : List WireValue} {vs : List Value} (key : String) :
    m.ItemsConform inner ws vs → key ∈ Value.keysOfItems vs →
      m.Declares key ∨ ∃ v ∈ vs, ∃ part, m.Shapeless inner v part ∧ key ∈ part.keys
  | .nil, hk => absurd hk List.not_mem_nil
  | .cons h hrest, hk => by
    rw [Value.keysOfItems, List.mem_append] at hk
    rcases hk with hk | hk
    · exact (h.keys key hk).imp_right fun hpart => ⟨_, List.mem_cons_self, hpart⟩
    · exact (hrest.keys key hk).imp_right fun ⟨v, hv, hpart⟩ => ⟨v, List.mem_cons_of_mem _ hv, hpart⟩

theorem FieldsConform.keys {entries : List (String × WireValue)} {declared : List InputField}
    {fields : List (String × Value)} (key : String) :
    m.FieldsConform entries declared fields → key ∈ Value.keysOfEntries fields →
      (∃ f ∈ declared, f.hostName = key) ∨ m.Declares key ∨
        ∃ f ∈ declared, ∃ v, (f.hostName, v) ∈ fields ∧
          ∃ part, m.Shapeless f.type v part ∧ key ∈ part.keys
  | .nil, hk => absurd hk List.not_mem_nil
  | .given hw h hrest, hk => by
    rw [Value.keysOfEntries, List.mem_cons, List.mem_append] at hk
    rcases hk with rfl | hk | hk
    · exact .inl ⟨_, List.mem_cons_self, rfl⟩
    · exact .inr ((h.keys key hk).imp_right fun hpart =>
        ⟨_, List.mem_cons_self, _, List.mem_cons_self, hpart⟩)
    · exact (hrest.keys key hk).imp (fun ⟨f, hf, he⟩ => ⟨f, List.mem_cons_of_mem _ hf, he⟩) fun h =>
        h.imp_right fun ⟨f, hf, v, hv, hpart⟩ =>
          ⟨f, List.mem_cons_of_mem _ hf, v, List.mem_cons_of_mem _ hv, hpart⟩
  | .absent hw hrest, hk =>
    (hrest.keys key hk).imp (fun ⟨f, hf, he⟩ => ⟨f, List.mem_cons_of_mem _ hf, he⟩) fun h =>
      h.imp_right fun ⟨f, hf, hpart⟩ => ⟨f, List.mem_cons_of_mem _ hf, hpart⟩

end

/-- A value has the shape of its type, and the keys in it are declared, but for the parts without a shape. -/
structure Shaped (m : Model) (type : TypeRef) (w : WireValue) (v : Value) : Prop where
  conforms : m.Conforms type w v
  keys : ∀ key ∈ v.keys, m.Declares key ∨ ∃ part, m.Shapeless type v part ∧ key ∈ part.keys

theorem Conforms.shaped {type : TypeRef} {w : WireValue} {v : Value} (h : m.Conforms type w v) :
    m.Shaped type w v := ⟨h, fun key => h.keys key⟩

end Model

end RecordGraph
