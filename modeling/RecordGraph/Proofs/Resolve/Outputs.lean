import RecordGraph.Proofs.Except
import RecordGraph.Resolve.Encode
/-! Outputs that fit their types. What a value is encoded as has the form that the declared type asks for, at every
depth: null for null and for nothing else, item by item for a list, what the codec writes for a scalar, a member of
the very enum, and the value itself for an object, under the name of its own type where an interface is declared.
Main statement: a value is encoded as some output exactly if that fits, and a list fails with its first failing
item. -/

namespace RecordGraph

namespace EnumType

/-- An enum writes its members bare, and nothing else. -/
theorem serialize_eq_ok {t : EnumType} {v : Value} {w : WireValue} :
    t.serialize v = .ok w ↔ ∃ member ∈ t.members, v = .member t.name member ∧ w = .member member := by
  cases v with
  | member enumName member =>
    by_cases hname : enumName = t.name
    · subst hname
      by_cases hmember : member ∈ t.members
      · simp [serialize, check, hmember, Except.map, eq_comm]
      · simp [serialize, check, hmember, Except.map]
    · simp [serialize, hname]
  | _ => simp [serialize]

end EnumType

namespace Model

variable {m : Model} {type : TypeRef} {v : Value} {out : Output}

/-- An output fits a type, as the encoding of a value. Whether null may stand somewhere is not asked here. -/
inductive Fits (m : Model) : TypeRef → Value → Output → Prop
  | null {type : TypeRef} : Fits m type .null .null
  | nonNull {inner : TypeRef} {v : Value} {out : Output} (h : Fits m inner v out) : Fits m (.nonNull inner) v out
  /-- As many items as there are elements, each for the element in its place. -/
  | list {inner : TypeRef} {items : List Value} {outs : List Output} (hlength : items.length = outs.length)
    (h : ∀ p ∈ items.zip outs, Fits m inner p.1 p.2) : Fits m (.list inner) (.list items) (.list outs)
  | scalar {name : String} {t : ScalarType} {v : Value} {w : WireValue} (ht : m.type? name = some (.scalar t))
    (hv : v ≠ .null) (hw : t.codec.serialize v = .ok w) : Fits m (.named name) v (.value w)
  /-- A member of exactly this enum. -/
  | enum {name member : String} {t : EnumType} (ht : m.type? name = some (.enum t)) (hmember : member ∈ t.members) :
    Fits m (.named name) (.member t.name member) (.value (.member member))
  | object {name : String} {t : ObjectType} {v : Value} (ht : m.type? name = some (.object t)) (hv : v ≠ .null) :
    Fits m (.named name) v (.object none v)
  /-- The value names an object type that implements the interface. -/
  | interface {name concrete : String} {i : InterfaceType} {t : ObjectType} {v : Value}
    (hi : m.type? name = some (.interface i)) (hname : v.typeName? = some concrete)
    (ht : m.type? concrete = some (.object t)) (himplements : i.name ∈ t.interfaces) :
    Fits m (.named name) v (.object (some concrete) v)

theorem Fits.null_iff (h : m.Fits type v out) : out = .null ↔ v = .null := by
  induction h with
  | null => simp
  | nonNull _ ih => exact ih
  | list => simp
  | scalar _ hv => simp [hv]
  | enum => simp
  | object _ hv => simp [hv]
  | interface _ hname =>
    refine iff_of_false nofun ?_
    rintro rfl
    cases hname

theorem concreteType_eq_ok {interface concrete : String} : m.concreteType interface v = .ok concrete ↔
    v.typeName? = some concrete ∧ ∃ t, m.type? concrete = some (.object t) ∧ interface ∈ t.interfaces := by
  rw [concreteType]
  cases v.typeName? with
  | none => simp
  | some name =>
    rw [Option.some_inj]
    constructor
    · intro h
      dsimp only at h
      split at h
      · rename_i t ht
        split at h
        · rename_i himplements
          cases h
          exact ⟨rfl, t, ht, List.contains_iff_mem.mp himplements⟩
        · cases h
      · cases h
    · rintro ⟨rfl, t, ht, himplements⟩
      simp [ht, himplements]

theorem encode_null (m : Model) (type : TypeRef) : m.encode type .null = .ok .null := by
  induction type with
  | named name => rfl
  | nonNull inner ih => exact ih
  | list inner ih => rfl

/-- A value of a named type is encoded by the kind of the type. -/
theorem encodeNamed_eq_ok {name : String} (hv : v ≠ .null) :
    m.encodeNamed name v = .ok out ↔ m.Fits (.named name) v out := by
  rw [encodeNamed]
  constructor
  · intro h
    split at h
    · rename_i t ht
      obtain ⟨w, hw, rfl⟩ := map_eq_ok.mp h
      exact .scalar ht hv (mapError_eq_ok.mp hw)
    · rename_i t ht
      obtain ⟨w, hw, rfl⟩ := map_eq_ok.mp h
      obtain ⟨member, hmember, rfl, rfl⟩ := EnumType.serialize_eq_ok.mp (mapError_eq_ok.mp hw)
      exact .enum ht hmember
    · rename_i t ht
      cases h
      exact .object ht hv
    · rename_i i hi
      obtain ⟨concrete, hconcrete, rfl⟩ := map_eq_ok.mp h
      obtain ⟨hname, t, ht, himplements⟩ := concreteType_eq_ok.mp hconcrete
      exact .interface hi hname ht himplements
    · cases h
    · cases h
  · intro h
    cases h with
    | null => exact absurd rfl hv
    | scalar ht _ hw => simp [ht, hw, Except.mapError, Except.map]
    | @enum _ member t ht hmember =>
      have hw : t.serialize (.member t.name member) = .ok (.member member) :=
        EnumType.serialize_eq_ok.mpr ⟨member, hmember, rfl, rfl⟩
      simp [ht, hw, Except.mapError, Except.map]
    | object ht => simp [ht]
    | @interface _ concrete i t _ hi hname ht himplements =>
      have hconcrete : m.concreteType i.name v = .ok concrete := concreteType_eq_ok.mpr ⟨hname, t, ht, himplements⟩
      simp [hi, hconcrete, Except.map]

theorem encode_list_eq_ok {inner : TypeRef} {items : List Value} :
    m.encode (.list inner) (.list items) = .ok out ↔
      ∃ outs, List.Forall₂ (fun v out => m.encode inner v = .ok out) items outs ∧ .list outs = out := by
  simp only [encode, map_eq_ok, mapM_eq_ok]

theorem encode_list_eq_error {inner : TypeRef} {items : List Value} {e : FieldError} :
    m.encode (.list inner) (.list items) = .error e ↔ items.mapM (m.encode inner) = .error e := by
  rw [encode]
  cases items.mapM (m.encode inner) <;> simp [Except.map]

/-- A value is encoded as an output exactly if that fits. -/
theorem encode_eq_ok : m.encode type v = .ok out ↔ m.Fits type v out := by
  induction type generalizing v out with
  | nonNull inner ih =>
    constructor
    · intro h
      exact .nonNull (ih.mp h)
    · intro h
      cases h with
      | null => exact m.encode_null inner
      | nonNull h => exact ih.mpr h
  | list inner ih =>
    cases v with
    | null =>
      constructor
      · intro h
        cases h
        exact .null
      · intro h
        cases h
        rfl
    | list items =>
      rw [encode_list_eq_ok]
      simp only [ih, List.forall₂_iff_zip]
      constructor
      · rintro ⟨outs, ⟨hlength, h⟩, rfl⟩
        exact .list hlength fun _ hp => h hp
      · intro h
        cases h with
        | list hlength h => exact ⟨_, ⟨hlength, fun hp => h _ hp⟩, rfl⟩
    | _ => exact iff_of_false nofun nofun
  | named name =>
    by_cases hv : v = .null
    · subst hv
      constructor
      · intro h
        cases h
        exact .null
      · intro h
        rw [h.null_iff.mpr rfl]
        rfl
    · rw [← encodeNamed_eq_ok hv]
      cases v with
      | null => exact absurd rfl hv
      | _ => rfl

/-- A value is encoded as an output exactly if the output fits the declared type: null exactly for null, an item for
each element of a list, what the codec writes for a scalar, a member of the enum, and the untouched value for an
object, with the name of an object type that implements the interface where one is declared. A list fails exactly if
an element does, with what the first such element reports, and then there is no output at all. -/
theorem encode_fits (m : Model) :
    (∀ type v out, m.encode type v = .ok out ↔ m.Fits type v out) ∧
    (∀ type v, m.encode type v = .ok .null ↔ v = .null) ∧
    (∀ inner items e, m.encode (.list inner) (.list items) = .error e ↔
      ∃ front v behind, items = front ++ v :: behind ∧ (∀ u ∈ front, ∃ out, m.encode inner u = .ok out) ∧
        m.encode inner v = .error e) ∧
    (∀ inner items, (∃ e, m.encode (.list inner) (.list items) = .error e) ↔
      ∃ v ∈ items, ∃ e, m.encode inner v = .error e) := by
  refine ⟨fun type v out => encode_eq_ok, fun type v => ?_, fun inner items e => ?_, fun inner items => ?_⟩
  · constructor
    · intro h
      exact (encode_eq_ok.mp h).null_iff.mp rfl
    · rintro rfl
      exact m.encode_null type
  · rw [encode_list_eq_error, mapM_eq_error]
  · simp only [encode_list_eq_error, exists_mapM_error_iff]

end Model

end RecordGraph
