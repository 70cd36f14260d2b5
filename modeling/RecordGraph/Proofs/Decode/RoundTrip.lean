import RecordGraph.Proofs.Build.Closure
import RecordGraph.Proofs.Decode.Shape
import RecordGraph.Proofs.Scalar.Identifier
import RecordGraph.Proofs.Resolve.Outputs
/-! Encoding after decoding. A wire value that is decoded by a type over enums, integers, truth values, texts
and identifiers comes back when the host value is encoded by the same type, apart from what decoding takes for
another value of the type: a single value for a list of one, a text for a member of an enum, and an integer for
the identifier with its digits. -/

namespace RecordGraph

namespace Output

mutual

/-- An output as a value on the wire, unless it holds an object. -/
def toWire? : Output → Option WireValue
  | .null => some .null
  | .value w => some w
  | .object _ _ => none
  | .list items => (itemsToWire? items).map .list

/-- The items of a list as values on the wire. -/
def itemsToWire? : List Output → Option (List WireValue)
  | [] => some []
  | item :: rest => do
    let w ← toWire? item
    let ws ← itemsToWire? rest
    return w :: ws

end

theorem itemsToWire?_of_forall₂ {outs : List Output} {ws : List WireValue}
    (h : List.Forall₂ (fun out w => toWire? out = some w) outs ws) : itemsToWire? outs = some ws := by
  induction h with
  | nil => rfl
  | cons hout _ ih =>
    rw [itemsToWire?, hout, ih]
    rfl

end Output

namespace WireType

/-- The types whose values are written as they are read: enums, and the scalars that every engine knows, with
the codecs that every schema gives to them. -/
inductive Restores : WireType → Prop
  | enum (t : EnumType) : Restores (.enum t)
  | scalar {t : ScalarType} (h : (t.wireName, t.codec) ∈
      [("Int", ScalarCodec.int), ("Boolean", .boolean), ("String", .string), ("ID", .id)]) : Restores (.scalar t)

/-- What a value at a type stands for. -/
def coerce : WireType → WireValue → WireValue
  | .enum _, .string name => .member name
  | .scalar t, .number (.integer n h) =>
    if t.wireName = "ID" then .string (ScalarCodec.encodeId (WireNumber.integer n h).text)
    else .number (.integer n h)
  | _, w => w

end WireType

namespace Model

/-- What a value at a type stands for: null is null of every type, and a value where a list is asked for is a
list of one. -/
def coerce (m : Model) : TypeRef → WireValue → WireValue
  | .nonNull inner, w => m.coerce inner w
  | _, .null => .null
  | .list inner, .list ws => .list (ws.map (m.coerce inner))
  | .list inner, w => .list [m.coerce inner w]
  | .named name, w => ((m.type? name).map fun t => t.coerce w).getD w

end Model

/-! Leaves. -/

theorem WireNumber.ofInt64_of_asInt64? {n : WireNumber} {k : Int64} (h : n.asInt64? = some k) :
    WireNumber.ofInt64 k = n := by
  cases n with
  | float => cases h
  | integer n hrange =>
    simp only [asInt64?, Option.ite_none_right_eq_some] at h
    obtain ⟨hn, ⟨⟩⟩ := h
    have htoInt : (Int64.ofInt n).toInt = n := Int64.toInt_ofInt_of_le hrange.1 hn
    simp only [ofInt64, htoInt]

namespace ScalarCodec

variable {w : WireValue} {v : Value}

/-- What a codec reads is a value of the host, and written as it was read. -/
def Exact (c : ScalarCodec) : Prop := ∀ {w v}, c.parse w = .ok v → c.serialize v = .ok w ∧ v ≠ .null

theorem exact_int : int.Exact := by
  intro w v h
  cases w with
  | number n =>
    simp only [int] at h
    split at h
    · rename_i k hk
      cases h
      exact ⟨congrArg (fun n => Except.ok (WireValue.number n)) (WireNumber.ofInt64_of_asInt64? hk), nofun⟩
    · cases h
  | _ => cases h

theorem exact_boolean : boolean.Exact := by
  intro w v h
  cases w with
  | bool b =>
    cases h
    exact ⟨rfl, nofun⟩
  | _ => cases h

theorem exact_string : string.Exact := by
  intro w v h
  cases w with
  | string s =>
    cases h
    exact ⟨rfl, nofun⟩
  | _ => cases h

end ScalarCodec

namespace WireType

variable {t : ScalarType} {e : EnumType} {w : WireValue} {v : Value}

theorem coerce_of_ne (hname : t.wireName ≠ "ID") (w : WireValue) : (scalar t).coerce w = w := by
  cases w with
  | number n =>
    cases n with
    | integer n h => exact if_neg hname
    | float => rfl
  | _ => rfl

/-- Identifiers are read from their wire text, or from an integer. -/
theorem serialize_id_of_parse (hname : t.wireName = "ID") (h : ScalarCodec.id.parse w = .ok v) :
    ScalarCodec.id.serialize v = .ok ((scalar t).coerce w) ∧ v ≠ .null := by
  cases w with
  | string s =>
    obtain ⟨text, htext, rfl⟩ := map_eq_ok.mp h
    exact ⟨congrArg (fun s => Except.ok (WireValue.string s)) (ScalarCodec.encodeId_of_decodeId htext), nofun⟩
  | number n =>
    cases n with
    | float => cases h
    | integer n hrange =>
      cases h
      refine ⟨?_, nofun⟩
      rw [coerce, if_pos hname]
      rfl
  | _ => cases h

theorem serialize_scalar_of_parse (ht : (scalar t).Restores) (h : t.codec.parse w = .ok v) :
    t.codec.serialize v = .ok ((scalar t).coerce w) ∧ v ≠ .null := by
  cases ht with | scalar ht =>
  simp only [List.mem_cons, Prod.mk.injEq, List.not_mem_nil, or_false] at ht
  have hexact (hname : t.wireName ≠ "ID") (hc : t.codec.Exact) :
      t.codec.serialize v = .ok ((scalar t).coerce w) ∧ v ≠ .null := by
    rw [coerce_of_ne hname]
    exact hc h
  obtain ⟨hname, hcodec⟩ | ⟨hname, hcodec⟩ | ⟨hname, hcodec⟩ | ⟨hname, hcodec⟩ := ht
  · exact hexact (by rw [hname]; decide) (hcodec ▸ ScalarCodec.exact_int)
  · exact hexact (by rw [hname]; decide) (hcodec ▸ ScalarCodec.exact_boolean)
  · exact hexact (by rw [hname]; decide) (hcodec ▸ ScalarCodec.exact_string)
  · rw [hcodec] at h ⊢
    exact serialize_id_of_parse hname h

theorem serialize_enum_of_parse (h : e.parse w = .ok v) :
    e.serialize v = .ok ((enum e).coerce w) ∧ v ≠ .null := by
  obtain ⟨member, hw, hmember, rfl⟩ := EnumType.member_of_parse h
  have hcoerce : (enum e).coerce w = .member member := by
    rcases hw with rfl | rfl <;> rfl
  refine ⟨?_, nofun⟩
  rw [hcoerce]
  exact EnumType.serialize_eq_ok.mpr ⟨member, hmember, rfl, rfl⟩

end WireType

namespace Model

variable {m : Model} {t : WireType} {w : WireValue} {v : Value}

/-! One layer of a type after the other. -/

theorem encodeNamed_of_decodeNamed {name : String} {x : TypeRef → WireValue → Bounded Value}
    (ht : m.type? name = some t) (hr : t.Restores) (h : (m.decodeNamed x name w).run = some (.ok v)) :
    m.encodeNamed name v = .ok (.value (t.coerce w)) ∧ v ≠ .null := by
  rw [decodeNamed, ht] at h
  rw [encodeNamed, ht]
  cases hr with
  | enum e =>
    obtain ⟨hserialize, hnull⟩ := WireType.serialize_enum_of_parse (Bounded.ok_of_codec h)
    exact ⟨by simp only [hserialize]; rfl, hnull⟩
  | @scalar t hs =>
    obtain ⟨hserialize, hnull⟩ := WireType.serialize_scalar_of_parse (.scalar hs) (Bounded.ok_of_codec h)
    exact ⟨by simp only [hserialize]; rfl, hnull⟩

/-- An output that reads back as some value. -/
def Writes (m : Model) (type : TypeRef) (v : Value) (w : WireValue) : Prop :=
  ∃ out, m.encode type v = .ok out ∧ out.toWire? = some w

theorem writes_null (m : Model) (type : TypeRef) : m.Writes type .null .null := by
  induction type with
  | nonNull inner ih => exact ih
  | _ => exact ⟨.null, by rw [encode]; simp, rfl⟩

theorem writes_list {inner : TypeRef} {vs : List Value} {ws : List WireValue}
    (h : List.Forall₂ (m.Writes inner) vs ws) : m.Writes (.list inner) (.list vs) (.list ws) := by
  obtain ⟨outs, houts, hws⟩ : ∃ outs, List.Forall₂ (fun v out => m.encode inner v = .ok out) vs outs ∧
      List.Forall₂ (fun out w => Output.toWire? out = some w) outs ws := by
    induction h with
    | nil => exact ⟨[], .nil, .nil⟩
    | cons hv _ ih =>
      obtain ⟨out, hout, hw⟩ := hv
      obtain ⟨outs, houts, hws⟩ := ih
      exact ⟨out :: outs, .cons hout houts, .cons hw hws⟩
  refine ⟨.list outs, ?_, ?_⟩
  · rw [encode, mapM_eq_ok.mpr houts]
    rfl
  · rw [Output.toWire?, Output.itemsToWire?_of_forall₂ hws]
    rfl

theorem writes_items {x : WireValue → Bounded Value} {inner : TypeRef}
    (hx : ∀ w v, (x w).run = some (.ok v) → m.Writes inner v (m.coerce inner w)) {ws : List WireValue}
    {vs : List Value} (h : (ws.mapM x).run = some (.ok vs)) :
    List.Forall₂ (m.Writes inner) vs (ws.map (m.coerce inner)) := by
  induction ws generalizing vs with
  | nil =>
    cases h
    exact .nil
  | cons w ws ih =>
    rw [List.mapM_cons] at h
    obtain ⟨v, hv, h⟩ := Bounded.exists_of_bind h
    obtain ⟨rest, hrest, h⟩ := Bounded.exists_of_bind h
    cases h
    exact .cons (hx w v hv) (ih hrest)

theorem writes_of_decodeWithin {steps : Nat} {type : TypeRef} (ht : m.type? type.base = some t)
    (hr : t.Restores) (h : (m.decodeWithin steps type w).run = some (.ok v)) :
    m.Writes type v (m.coerce type w) := by
  -- The steps bound the nesting of the type too, so they carry the induction and the type is split under it.
  induction steps generalizing type w v with
  | zero => cases h
  | succ steps ih =>
    cases type with
    | nonNull inner =>
      have hinner : m.type? inner.base = some t := ht
      obtain ⟨out, hout, hw⟩ := ih hinner h
      exact ⟨out, by rw [encode]; exact hout, by rw [coerce]; exact hw⟩
    | list inner =>
      have hinner : m.type? inner.base = some t := ht
      have hsingle (h : (do return Value.list [← m.decodeWithin steps inner w] : Bounded Value).run =
          some (.ok v)) : m.Writes (.list inner) v (.list [m.coerce inner w]) := by
        obtain ⟨item, hitem, h⟩ := Bounded.exists_of_bind h
        cases h
        exact writes_list (.cons (ih hinner hitem) .nil)
      cases w with
      | null =>
        cases h
        exact writes_null m _
      | list ws =>
        obtain ⟨vs, hvs, h⟩ := Bounded.exists_of_bind h
        cases h
        exact writes_list (writes_items (fun _ _ => ih hinner) hvs)
      | _ => exact hsingle h
    | named name =>
      have hleaf (hnull : w ≠ .null) : m.Writes (.named name) v (t.coerce w) := by
        rw [decodeWithin_named hnull] at h
        obtain ⟨hvalue, hv⟩ := encodeNamed_of_decodeNamed ht hr h
        refine ⟨.value (t.coerce w), ?_, rfl⟩
        cases v with
        | null => exact absurd rfl hv
        | _ => exact hvalue
      have hcoerce (hnull : w ≠ .null) : m.coerce (.named name) w = t.coerce w := by
        rw [TypeRef.base] at ht
        cases w with
        | null => exact absurd rfl hnull
        | _ => simp only [coerce, ht, Option.map_some, Option.getD_some]
      cases w with
      | null =>
        cases h
        exact writes_null m _
      | _ => exact hcoerce (by simp) ▸ hleaf (by simp)

/-- A value that is decoded by a type over enums and the scalars of every engine is encoded by that type, and
what is written is what was read, for what it stands for. -/
theorem encode_of_decode {type : TypeRef} (ht : m.type? type.base = some t) (hr : t.Restores)
    (h : m.decode type w = .ok v) :
    ∃ out, m.encode type v = .ok out ∧ out.toWire? = some (m.coerce type w) := by
  unfold decode at h
  split at h
  · rename_i outcome hrun
    rw [h] at hrun
    exact writes_of_decodeWithin ht hr hrun
  · cases h

/-- A number among nulls, where lists of identifiers are asked for. -/
def numbers : WireValue := .list [.number (.integer 7 (by decide)), .null]

theorem restored_numbers : ∃ m t v out, build (bookshop []) shopRoots = .ok m ∧
    m.type? "ID" = some t ∧ t.Restores ∧ m.decode (.list (.list (.named "ID"))) numbers = .ok v ∧
    m.encode (.list (.list (.named "ID"))) v = .ok out ∧
    out.toWire? = some (.list [.list [.string "Nw=="], .null]) := by
  obtain ⟨m, t, v, hm, ht, hid, hv, hw⟩ : ∃ m t v, build (bookshop []) shopRoots = .ok m ∧
    m.type? "ID" = some (.scalar t) ∧ (t.wireName, t.codec) = ("ID", .id) ∧
    m.decode (.list (.list (.named "ID"))) numbers = .ok v ∧
    m.coerce (.list (.list (.named "ID"))) numbers = .list [.list [.string "Nw=="], .null] :=
    ⟨_, _, _, rfl, rfl, rfl, rfl, rfl⟩
  have hr : (WireType.scalar t).Restores := .scalar (by rw [hid]; simp)
  have hbase : m.type? (TypeRef.list (.list (.named "ID"))).base = some (.scalar t) := ht
  obtain ⟨out, hout, hwire⟩ := encode_of_decode hbase hr hv
  exact ⟨m, _, v, out, hm, ht, hr, hv, hout, hw ▸ hwire⟩

end Model

end RecordGraph
