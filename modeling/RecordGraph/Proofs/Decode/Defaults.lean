import RecordGraph.Proofs.Decode.RoundTrip
import RecordGraph.Proofs.Decode.Arguments
import RecordGraph.Proofs.Value.Plain
import RecordGraph.Proofs.Value.Same
/-! Declared defaults. A default is kept in the plain form of its value, without the codec of its field, but it is
decoded with the codec, as if the client had given it. So it arrives as it was declared exactly where the codec
reads the plain form as the value. -/

namespace RecordGraph

/-- A value in its plain form is read by a codec as an equal one. -/
def ScalarCodec.KeepsPlain (c : ScalarCodec) (v : Value) : Prop :=
  ∃ w v', v.toWire = .ok w ∧ w ≠ .null ∧ c.parse w = .ok v' ∧ v.same v' = true

namespace Model

/-- At every leaf of a value, the plain form is read as the value: always for null and members of enums, at a
scalar if its codec does. -/
def Restores (m : Model) : TypeRef → Value → Prop
  | .nonNull inner, v => m.Restores inner v
  | _, .null => True
  | .list inner, .list items => ∀ item ∈ items, m.Restores inner item
  | .list _, _ => False
  | .named name, v =>
    match m.type? name with
    | some (.enum _) => True
    | some (.scalar t) => t.codec.KeepsPlain v
    | _ => False

/-- Objects that leave a field out are decoded at the field, and have an equal of its declared default under
the host name. -/
def Arrives (m : Model) (fields : List InputField) (f : InputField) (v : Value) : Prop :=
  ∀ entries, Entries.get? entries f.name = none →
    ∃ w v', f.given? entries = some w ∧ m.decode f.type w = .ok v' ∧ v.same v' = true ∧
      ∀ steps decoded, (decodeFields (m.decodeWithin steps) entries [] fields).run = some (.ok decoded) →
        Entries.get? decoded f.hostName = some v'

/-- A field arrives if its type restores the default. -/
structure DefaultForm (m : Model) (fields : List InputField) (declared : Field) (f : InputField) : Prop where
  hostName : f.hostName = declared.sourceName
  arrives_iff : ∀ {v out}, declared.default = some v → m.encode f.type v = .ok out →
    (m.Arrives fields f v ↔ m.Restores f.type v)

end Model

/-! Plain forms. -/

namespace Value

variable {v : Value} {w : WireValue}

/-- Beside null, decimals beyond the largest float are written as null. -/
theorem same_null (hv : v ≠ .null) : v.same .null = false := by
  cases v with
  | null => exact absurd rfl hv
  | _ => rfl

end Value

/-! Codecs. -/

namespace ScalarCodec

variable {v : Value} {x : WireValue}

theorem ofWire_of_asInt64? {w : WireNumber} {k : Int64} (h : w.asInt64? = some k) :
    HostNumber.ofWire w = .signed k := by
  cases w with
  | float => cases h
  | integer n hrange =>
    simp only [WireNumber.asInt64?, Option.ite_none_right_eq_some] at h
    obtain ⟨hn, ⟨⟩⟩ := h
    rw [HostNumber.ofWire, if_pos hn]

theorem keepsPlain_of_asInt64? {n : HostNumber} {w : WireNumber} {k : Int64} (hw : n.toWire? = some w)
    (hk : w.asInt64? = some k) : int.KeepsPlain (.number n) := by
  refine ⟨.number w, .int k, by rw [Value.toWire, hw], by simp, by simp only [int, hk], ?_⟩
  rw [Value.int, ← ofWire_of_asInt64? hk]
  exact HostNumber.same_ofWire hw

/-- An integer that fits stays one on the wire, and a float does not become one. -/
theorem keepsPlain_int (h : int.serialize v = .ok x) : int.KeepsPlain v ↔ ∀ y, v ≠ .number (.float y) := by
  cases v with
  | number n =>
    cases n with
    | signed n =>
      have hlt : n.toInt < 0x8000000000000000 := n.toInt_lt
      have hk : (WireNumber.ofInt64 n).asInt64? = some (Int64.ofInt n.toInt) := if_pos hlt
      exact iff_of_true (keepsPlain_of_asInt64? rfl hk) (by simp)
    | unsigned n =>
      by_cases hn : n.toNat < 0x8000000000000000
      · have hlt : (n.toNat : Int) < 0x8000000000000000 := by omega
        have hk : (WireNumber.ofUInt64 n).asInt64? = some (Int64.ofInt n.toNat) := by
          rw [WireNumber.ofUInt64, WireNumber.asInt64?, if_pos hlt]
        exact iff_of_true (keepsPlain_of_asInt64? rfl hk) (by simp)
      · simp only [int, Value.asInt64?, HostNumber.asInt64?, if_neg hn] at h
        cases h
    | float y =>
      refine iff_of_false ?_ fun hno => hno y rfl
      rintro ⟨w, v', hw, -, hparse, -⟩
      obtain ⟨k, hk, rfl⟩ := Value.toWire_number hw
      obtain ⟨hfinite, rfl⟩ := HostNumber.toWire?_float hk
      cases hparse
  | _ => cases h

/-- A decimal comes back as a float. -/
theorem keepsPlain_float {w : WireValue} (h : float.serialize v = .ok x) (hw : v.toWire = .ok w) :
    float.KeepsPlain v ↔ ∃ n, v = .number n := by
  cases v with
  | number n =>
    obtain ⟨k, hk, rfl⟩ := Value.toWire_number hw
    exact iff_of_true ⟨_, _, hw, nofun, rfl, HostNumber.same_ofWire hk⟩ ⟨n, rfl⟩
  | decimal d =>
    refine iff_of_false ?_ nofun
    rintro ⟨w, v', -, -, hparse, hsame⟩
    cases w with
    | number k =>
      cases hparse
      cases hsame
    | _ => cases hparse
  | _ => cases h

theorem keepsPlain_boolean (h : boolean.serialize v = .ok x) : boolean.KeepsPlain v := by
  cases v with
  | bool b => exact ⟨.bool b, .bool b, rfl, by simp, rfl, by simp [Value.same]⟩
  | _ => cases h

/-- Only a text equals what is read as a text. -/
theorem eq_string_of_same {s : String} (h : v.same (.string s) = true) : v = .string s := by
  cases v with
  | string t => simpa [Value.same] using h
  | _ => cases h

/-- Truth values and numbers are written as texts, but are none. -/
theorem keepsPlain_string : string.KeepsPlain v ↔ ∃ s, v = .string s := by
  constructor
  · rintro ⟨w, v', -, -, hparse, hsame⟩
    cases w with
    | string s =>
      cases hparse
      exact ⟨s, eq_string_of_same hsame⟩
    | _ => cases hparse
  · rintro ⟨s, rfl⟩
    exact ⟨.string s, .string s, rfl, by simp, rfl, by simp [Value.same]⟩

theorem string_of_parse_id {w : WireValue} {v' : Value} (h : id.parse w = .ok v') : ∃ s, v' = .string s := by
  cases w with
  | string s =>
    obtain ⟨text, -, rfl⟩ := map_eq_ok.mp h
    exact ⟨text, rfl⟩
  | number n =>
    cases n with
    | integer =>
      cases h
      exact ⟨_, rfl⟩
    | float => cases h
  | _ => cases h

/-- A text that is its own wire text is empty. -/
theorem keepsPlain_id : id.KeepsPlain v ↔ v = .string "" := by
  constructor
  · rintro ⟨w, v', hw, -, hparse, hsame⟩
    obtain ⟨s, rfl⟩ := string_of_parse_id hparse
    obtain rfl := eq_string_of_same hsame
    cases hw
    obtain ⟨text, htext, ⟨⟩⟩ := map_eq_ok.mp hparse
    have hencoded : encodeId s = s := encodeId_of_decodeId htext
    -- Base 64 makes every other text longer.
    have hlength := congrArg (fun s => s.toList.length) hencoded
    simp only [encodeId, String.toList_ofList] at hlength
    have hle := Text.length_le_octets s.toList
    by_cases hempty : Text.octets s.toList = []
    · rw [hempty, List.length_nil, Nat.le_zero, List.length_eq_zero_iff, String.toList_eq_nil_iff] at hle
      rw [hle]
    · have hlt := Text.Base64.length_lt_encode hempty
      omega
  · rintro rfl
    exact ⟨.string "", .string "", rfl, by simp, rfl, by decide⟩

end ScalarCodec

namespace Model

variable {m : Model} {w : WireValue} {v : Value} {out : Output}

/-! A value that its type can represent is restored exactly if the plain form is decoded as an equal one. -/

theorem items_plain_iff {inner : TypeRef}
    (hx : ∀ {v w out}, m.encode inner v = .ok out → v.toWire = .ok w →
      ((∃ v', m.Conforms inner w v' ∧ v.same v' = true) ↔ m.Restores inner v))
    {items : List Value} {ws : List WireValue} {outs : List Output}
    (hws : List.Forall₂ (fun v w => v.toWire = .ok w) items ws)
    (houts : List.Forall₂ (fun v out => m.encode inner v = .ok out) items outs) :
    (∃ vs, m.ItemsConform inner ws vs ∧ Value.sameItems items vs = true) ↔
      ∀ v ∈ items, m.Restores inner v := by
  induction hws generalizing outs with
  | nil => exact iff_of_true ⟨[], .nil, rfl⟩ (List.forall_mem_nil _)
  | cons hw _ ih =>
    cases houts with | cons hout houts =>
    rw [List.forall_mem_cons, ← hx hout hw, ← ih houts]
    constructor
    · rintro ⟨vs, hvs, hsame⟩
      cases hvs with | cons hv hvs =>
      rw [Value.sameItems, Bool.and_eq_true] at hsame
      exact ⟨⟨_, hv, hsame.1⟩, _, hvs, hsame.2⟩
    · rintro ⟨⟨v, hv, hsame⟩, vs, hvs, hrest⟩
      exact ⟨v :: vs, .cons hv hvs, by rw [Value.sameItems, hsame, hrest]; rfl⟩

/-- Nothing but null is decoded by a type that clients read. -/
theorem not_same_of_output {name : String} {t : WireType} (ht : m.type? name = some t)
    (hfields : t.fields?.isSome) (hnull : v ≠ .null) :
    ¬ ∃ v', m.Conforms (.named name) w v' ∧ v.same v' = true := by
  rintro ⟨v', h, hsame⟩
  have hkind {u : WireType} (hu : m.type? name = some u) : u.fields?.isSome := by
    cases ht.symm.trans hu
    exact hfields
  cases h with
  | null => exact absurd hsame (by rw [Value.same_null hnull]; exact Bool.false_ne_true)
  | scalar _ hu => cases hkind hu
  | enum hu => cases hkind hu
  | mapping hu => cases hkind hu
  | loaded hu => cases hkind hu

theorem named_plain_iff (hm : m.Distinct) {name : String} (hnull : v ≠ .null)
    (hout : m.encodeNamed name v = .ok out) (hw : v.toWire = .ok w) :
    (∃ v', m.Conforms (.named name) w v' ∧ v.same v' = true) ↔ m.Restores (.named name) v := by
  have hrestores : m.Restores (.named name) v ↔ match m.type? name with
      | some (.enum _) => True
      | some (.scalar t) => t.codec.KeepsPlain v
      | _ => False := by
    cases v with
    | null => exact absurd rfl hnull
    | _ => rw [Restores]; simp
  rw [hrestores]
  unfold encodeNamed at hout
  split at hout
  case h_1 t ht =>
    rw [ht]
    constructor
    · rintro ⟨v', h, hsame⟩
      cases h with
      | null => exact absurd hsame (by rw [Value.same_null hnull]; exact Bool.false_ne_true)
      | scalar hne ht' h =>
        cases ht.symm.trans ht'
        exact ⟨w, v', hw, hne, h, hsame⟩
      | enum ht' => cases ht.symm.trans ht'
      | mapping ht' => cases ht.symm.trans ht'
      | loaded ht' => cases ht.symm.trans ht'
    · rintro ⟨w', v', hw', hne, h, hsame⟩
      cases hw.symm.trans hw'
      exact ⟨v', .scalar hne ht h, hsame⟩
  case h_2 e ht =>
    rw [ht]
    obtain ⟨wire, hwire, -⟩ := map_eq_ok.mp hout
    obtain ⟨member, hmember, rfl, -⟩ := EnumType.serialize_eq_ok.mp (mapError_eq_ok.mp hwire)
    cases hw
    refine iff_of_true ⟨_, .enum ht (.inl rfl) hmember, ?_⟩ trivial
    simp [Value.same, hm.enum ht]
  case h_3 t ht =>
    rw [ht]
    exact iff_of_false (not_same_of_output ht rfl hnull) id
  case h_4 t ht =>
    rw [ht]
    exact iff_of_false (not_same_of_output ht rfl hnull) id
  all_goals cases hout

theorem conforms_plain_iff (hm : m.Distinct) {type : TypeRef} (hout : m.encode type v = .ok out)
    (hw : v.toWire = .ok w) :
    (∃ v', m.Conforms type w v' ∧ v.same v' = true) ↔ m.Restores type v := by
  induction type generalizing v w out with
  | nonNull inner ih =>
    rw [Restores, ← ih (by rw [encode] at hout; exact hout) hw]
    constructor
    · rintro ⟨v', h, hsame⟩
      cases h with
      | null => exact ⟨_, .null, hsame⟩
      | nonNull h => exact ⟨v', h, hsame⟩
    · rintro ⟨v', h, hsame⟩
      exact ⟨v', .nonNull h, hsame⟩
  | list inner ih =>
    cases v with
    | null =>
      cases hw
      exact iff_of_true ⟨.null, .null, rfl⟩ trivial
    | list items =>
      obtain ⟨ws, hws, rfl⟩ := map_eq_ok.mp hw
      obtain ⟨outs, houts, rfl⟩ := map_eq_ok.mp hout
      rw [Restores, ← items_plain_iff ih (Value.itemsToWire_eq_ok.mp hws) (mapM_eq_ok.mp houts)]
      constructor
      · rintro ⟨v', h, hsame⟩
        cases h with
        | list h => exact ⟨_, h, hsame⟩
        | single _ hno => exact absurd rfl (hno ws)
      · rintro ⟨vs, h, hsame⟩
        exact ⟨.list vs, .list h, hsame⟩
    | _ => cases hout
  | named name =>
    by_cases hnull : v = .null
    · subst hnull
      cases hw
      exact iff_of_true ⟨.null, .null, rfl⟩ trivial
    · refine named_plain_iff hm hnull (?_ : m.encodeNamed name v = .ok out) hw
      cases v with
      | null => exact absurd rfl hnull
      | _ => exact hout

/-! Fields. -/

/-- A field that has something to decode has it decoded, under its host name. -/
theorem FieldsConform.get?_of_given {entries : List (String × WireValue)} {declared : List InputField}
    {fields : List (String × Value)} {f : InputField} (hn : (declared.map InputField.hostName).Nodup)
    (hf : f ∈ declared) (hw : f.given? entries = some w) : m.FieldsConform entries declared fields →
      ∃ v, m.Conforms f.type w v ∧ Entries.get? fields f.hostName = some v
  | .nil => absurd hf List.not_mem_nil
  | .given (f := g) hg h hrest => by
    rw [List.map_cons, List.nodup_cons] at hn
    rcases List.mem_cons.mp hf with rfl | hf
    · cases hw.symm.trans hg
      exact ⟨_, h, if_pos rfl⟩
    · obtain ⟨v, hv, hget⟩ := hrest.get?_of_given hn.2 hf hw
      have hne : g.hostName ≠ f.hostName := fun he => hn.1 (he ▸ List.mem_map_of_mem hf)
      exact ⟨v, hv, by rw [Entries.get?_cons, if_neg hne]; exact hget⟩
  | .absent (f := g) hg hrest => by
    rcases List.mem_cons.mp hf with rfl | hf
    · cases hw.symm.trans hg
    · exact hrest.get?_of_given (List.nodup_cons.mp hn).2 hf hw

theorem defaultForm_of_inputForm (hm : m.Distinct) {s : Setting} {d d' : Draft} {name : String}
    {t : InputObjectType} {declared : Field} {f : InputField} (ht : m.type? name = some (.inputObject t))
    (hf : f ∈ t.fields) (hform : InputForm s d d' declared f) : m.DefaultForm t.fields declared f where
  hostName := hform.hostName
  arrives_iff := by
    intro v out hv hout
    obtain ⟨w, hdefault, hw⟩ : ∃ w, f.default = some w ∧ v.toWire = .ok w := by
      have h := hform.default
      rw [hv] at h
      obtain ⟨w, hdefault, hw⟩ := Option.map_eq_some_iff.mp h
      exact ⟨w, hdefault, hw.symm⟩
    have hgiven {entries : Entries WireValue} (habsent : Entries.get? entries f.name = none) :
        f.given? entries = some w := by
      rw [InputField.given?, habsent, hdefault]
      rfl
    rw [← conforms_plain_iff hm hout hw]
    constructor
    · intro harrives
      obtain ⟨w', v', hw', hdecode, hsame, -⟩ := harrives [] rfl
      cases (hgiven rfl).symm.trans hw'
      exact ⟨v', ((decode_eq_ok hm).mp hdecode).conforms, hsame⟩
    · rintro ⟨v', h, hsame⟩ entries habsent
      -- Decoding the default by itself and among the fields of an object ends in the same value.
      have hdecode : m.decode f.type w = .ok v' := (decode_eq_ok hm).mpr h.shaped
      refine ⟨w, v', hgiven habsent, hdecode, hsame, fun steps decoded hrun => ?_⟩
      obtain ⟨fields, rfl, hfields⟩ := fieldsConform_of_decodeFields
        (fun _ _ _ => conforms_of_decodeWithin hm) (hm.inputObject ht) (fun _ _ => rfl) hrun
      obtain ⟨v'', h'', hget⟩ := hfields.get?_of_given (hm.inputObject ht) hf (hgiven habsent)
      cases hdecode.symm.trans ((decode_eq_ok hm).mpr h''.shaped)
      exact hget

/-- An input object is made of a declared record. -/
theorem declaration_of_inputObject {s : Setting} {roots : RootRecords} {d : Draft} {t : InputObjectType}
    (h : Origin s roots {} d (.inputObject t)) : ∃ r ∈ s.declared roots, t.name = r.name ++ "Input" ∧
      List.Forall₂ (InputForm s {} d) (r.fields.filter Field.inInput) t.fields := by
  cases h with
  | marker _ _ _ hmem _ => simp [Build.markerTypes] at hmem
  | inputObject hr hf _ => exact ⟨_, hr, rfl, hf⟩

/-- A declared default that its type can represent arrives exactly if the type restores it. Of the scalars that
every engine knows, `Int` restores all integers but no floats, `Float` all numbers but no decimals, `Boolean`
all that it writes, `String` only texts, and `ID` only the empty text. -/
theorem defaults_arrive_iff {s : Setting} {roots : RootRecords} (h : build s roots = .ok m) :
    (∀ {name t}, m.type? name = some (.inputObject t) → ∃ r ∈ s.declared roots, t.name = r.name ++ "Input" ∧
      List.Forall₂ (m.DefaultForm t.fields) (r.fields.filter Field.inInput) t.fields) ∧
    (∀ {v x}, ScalarCodec.int.serialize v = .ok x →
      (ScalarCodec.int.KeepsPlain v ↔ ∀ y, v ≠ .number (.float y))) ∧
    (∀ {v w x}, ScalarCodec.float.serialize v = .ok x → v.toWire = .ok w →
      (ScalarCodec.float.KeepsPlain v ↔ ∃ n, v = .number n)) ∧
    (∀ {v x}, ScalarCodec.boolean.serialize v = .ok x → ScalarCodec.boolean.KeepsPlain v) ∧
    (∀ {v}, ScalarCodec.string.KeepsPlain v ↔ ∃ text, v = .string text) ∧
    ∀ {v}, ScalarCodec.id.KeepsPlain v ↔ v = .string "" := by
  refine ⟨fun {name t} ht => ?_, ScalarCodec.keepsPlain_int, ScalarCodec.keepsPlain_float,
    ScalarCodec.keepsPlain_boolean, ScalarCodec.keepsPlain_string, ScalarCodec.keepsPlain_id⟩
  obtain ⟨d, -, -, horigin⟩ := origins_of_build h
  obtain ⟨r, hr, hname, hforms⟩ := declaration_of_inputObject (horigin ht).2
  refine ⟨r, hr, hname, List.forall₂_iff_get.mpr ⟨hforms.length_eq, fun i hi hi' => ?_⟩⟩
  exact defaultForm_of_inputForm (distinct_of_build h) ht (List.get_mem _ _)
    ((List.forall₂_iff_get.mp hforms).2 i hi hi')

theorem arrives_copyCount : ∃ m t f, build orderSetting orderRoots = .ok m ∧
    m.type? "OrderInput" = some (.inputObject t) ∧ f ∈ t.fields ∧ f.hostName = "copy_count" ∧
    m.Arrives t.fields f (.int 1) := by
  obtain ⟨m, t, a, f, b, out, hm, ht, hname, hfields, htype, hint, hout⟩ : ∃ m t a f b out,
      build orderSetting orderRoots = .ok m ∧ m.type? "OrderInput" = some (.inputObject t) ∧
      t.name = "OrderInput" ∧ t.fields = [a, f, b] ∧ f.type = .named "Int" ∧
      m.type? "Int" = some (.scalar ⟨"i64", "Int", none, true, .int⟩) ∧
      m.encode (.named "Int") (.int 1) = .ok out := ⟨_, _, _, _, _, _, rfl, rfl, rfl, rfl, rfl, rfl, rfl⟩
  obtain ⟨hdefaults, hkeeps, -⟩ := defaults_arrive_iff hm
  obtain ⟨r, hr, hr', hforms⟩ := hdefaults ht
  obtain rfl : r = orderRecord := by
    rw [hname] at hr'
    rcases List.mem_cons.mp hr with rfl | hr
    · rfl
    rcases List.mem_cons.mp hr with rfl | hr
    · rfl
    · obtain rfl := List.mem_singleton.mp hr
      exact absurd hr' (by decide)
  refine ⟨m, t, f, hm, ht, by simp [hfields], ?_⟩
  rw [hfields] at hforms ⊢
  obtain ⟨-, ⟨hform, -⟩⟩ := List.forall₂_cons.mp hforms |>.imp_right List.forall₂_cons.mp
  have hrestores : m.Restores f.type (.int 1) := by
    have hkept : ScalarCodec.int.KeepsPlain (.int 1) := (hkeeps (x := .number (.ofInt64 1)) rfl).mpr nofun
    rw [htype, Value.int, Restores, hint]
    · exact hkept
    · exact nofun
  exact ⟨hform.hostName, (hform.arrives_iff rfl (htype ▸ hout)).mpr hrestores⟩

/-- Orders that belong to someone, unless they say otherwise. -/
def ownedOrder : Record :=
  { name := "Order", fields := [{ name := "owner", type := .scalar "ID", default := some (.string "7") }] }

/-- A schema that takes them. -/
def ownedSetting : Setting :=
  { catalogue := { records := [("Order", ownedOrder)] }, options := { mutationTypes := [ownedOrder] } }

/-- An order without an owner cannot be decoded, because the default is read as the base 64 of one. -/
theorem refused_ownedOrder : ∃ m t f out, build ownedSetting orderRoots = .ok m ∧
    m.type? "OrderInput" = some (.inputObject t) ∧ t.fields = [f] ∧ f.hostName = "owner" ∧
    f.default = some (.string "7") ∧ m.encode f.type (.string "7") = .ok out ∧
    ¬ m.Arrives t.fields f (.string "7") := by
  obtain ⟨m, t, f, out, e, hm, ht, hfields, hhost, hdefault, hout, hdecode⟩ : ∃ m t f out e,
      build ownedSetting orderRoots = .ok m ∧
      m.type? "OrderInput" = some (.inputObject t) ∧ t.fields = [f] ∧ f.hostName = "owner" ∧
      f.default = some (.string "7") ∧ m.encode f.type (.string "7") = .ok out ∧
      m.decode f.type (.string "7") = .error e := ⟨_, _, _, _, _, rfl, rfl, rfl, rfl, rfl, rfl, rfl⟩
  refine ⟨m, t, f, out, hm, ht, hfields, hhost, hdefault, hout, fun harrives => ?_⟩
  obtain ⟨w, v, hw, hv, -⟩ := harrives [] rfl
  cases (show f.given? [] = some (.string "7") from hdefault).symm.trans hw
  cases hdecode.symm.trans hv

end Model

end RecordGraph
