import RecordGraph.Scalar.Codec
import RecordGraph.Proofs.Value.Equality
import RecordGraph.Proofs.Value.Plain
/-! Nulls on the way out. What is no finite number has no number on the wire. The codecs of `Float` and `Decimal`
write null for it, and the plain form does so for decimals, also inside a dictionary; everything else that cannot be
written is refused. -/

namespace RecordGraph

namespace Value

variable {v : Value}

/-- A number that is none on the wire: a float that is not finite, or a decimal beyond the floats. -/
inductive Beyond : Value → Prop
  | float {x : Binary64} (h : x.isFinite = false) : Beyond (.number (.float x))
  | decimal {d : Decimal} (h : d.toBinary64.isFinite = false) : Beyond (.decimal d)

/-- A value whose plain form has a null for a decimal, since nothing else in it is in the way. -/
def Hushed (v : Value) : Prop := Inside Overflows v ∧ ¬ Inside Unwritten v

/-- A conversion never writes null for something else, at any depth, and what is no number on the wire it refuses or
writes as a text. -/
structure Reports {ε : Type} (f : Value → Except ε WireValue) (v : Value) : Prop where
  kept : ∀ w, f v = .ok w → ¬ Silenced v w
  refused : Inside Beyond v → (∃ e, f v = .error e) ∨ ∃ text, f v = .ok (.string text)

theorem inside_of_beyond (h : Inside Beyond v) : Inside Unwritten v ∨ Inside Overflows v := by
  induction h with
  | here h =>
    cases h with
    | float h => exact .inl (.here (.float h))
    | decimal h => exact .inr (.here (.decimal h))
  | item hmem _ ih => exact ih.imp (.item hmem) (.item hmem)
  | entry hmem _ ih => exact ih.imp (.entry hmem) (.entry hmem)

/-- A value that holds no others can only be silenced as a whole. -/
theorem reports_leaf {ε : Type} {f : Value → Except ε WireValue} (hlist : ∀ items, v ≠ .list items)
    (hmapping : ∀ entries, v ≠ .mapping entries) : Reports f v ↔ (f v = .ok .null → v = .null) ∧
      (v.Beyond → (∃ e, f v = .error e) ∨ ∃ text, f v = .ok (.string text)) := by
  rw [← inside_leaf (p := Beyond) hlist hmapping]
  constructor
  · intro h
    refine ⟨fun hnull => ?_, h.refused⟩
    exact Classical.byContradiction fun hv => h.kept _ hnull (.here hv)
  · rintro ⟨hnull, hrefused⟩
    refine ⟨fun w hw hs => ?_, hrefused⟩
    obtain ⟨hv, rfl⟩ := (silenced_leaf hlist hmapping).mp hs
    exact hv (hnull hw)

/-- What is refused is reported. -/
theorem reports_of_error {ε : Type} {f : Value → Except ε WireValue} {e : ε} (h : f v = .error e) : Reports f v := by
  refine ⟨fun w hw => ?_, fun _ => .inl ⟨e, h⟩⟩
  rw [h] at hw
  cases hw

/-- A text stands for itself. -/
theorem reports_of_string {ε : Type} {f : Value → Except ε WireValue} {text : String}
    (h : f v = .ok (.string text)) : Reports f v := by
  refine ⟨fun w hw => ?_, fun _ => .inr ⟨text, h⟩⟩
  rw [h] at hw
  cases hw
  nofun

/-- Conversions that write the same report the same. -/
theorem reports_congr {ε ε' : Type} {f : Value → Except ε WireValue} {g : Value → Except ε' WireValue}
    (h : ∀ w, f v = .ok w ↔ g v = .ok w) : Reports f v ↔ Reports g v := by
  constructor
  · intro hf
    refine ⟨fun w hw => hf.kept w ((h w).mpr hw), fun hbeyond => (hf.refused hbeyond).imp ?_ ?_⟩
    · simp only [exists_error_iff, h, imp_self]
    · simp only [h, imp_self]
  · intro hg
    refine ⟨fun w hw => hg.kept w ((h w).mp hw), fun hbeyond => (hg.refused hbeyond).imp ?_ ?_⟩
    · simp only [exists_error_iff, h, imp_self]
    · simp only [h, imp_self]

/-- The plain form reports everything but decimals beyond the floats. -/
theorem reports_toWire (v : Value) : Reports toWire v ↔ ¬ v.Hushed := by
  constructor
  · rintro hreports ⟨hover, hwritten⟩
    obtain ⟨w, hw⟩ := (exists_toWire_iff v).mpr hwritten
    exact hreports.kept w hw ((silenced_iff hw).mpr hover)
  · intro h
    cases hw : v.toWire with
    | error e => exact reports_of_error hw
    | ok w =>
      have hwritten := (exists_toWire_iff v).mp ⟨w, hw⟩
      have hover : ¬ Inside Overflows v := fun hover => h ⟨hover, hwritten⟩
      refine ⟨fun w hw hs => hover ((silenced_iff hw).mp hs), fun hbeyond => ?_⟩
      exact absurd (inside_of_beyond hbeyond) (not_or_intro hwritten hover)

end Value

namespace ScalarCodec

open Value

variable {v : Value}

/-- Integers of 64 bits are finite floats. -/
theorem isFinite_toBinary64 {n : HostNumber} : n.toBinary64.isFinite = false ↔ (Value.number n).Beyond := by
  have hinteger {k : Int} (h : n.Holds k) : n.toBinary64.isFinite = false ↔ (Value.number n).Beyond := by
    refine iff_of_false (by simp [h.denotes.1]) ?_
    rintro ⟨-⟩
    exact h.elim
  cases n with
  | signed k => exact hinteger (k := k.toInt) rfl
  | unsigned k => exact hinteger (k := k.toNat) rfl
  | float x => exact ⟨.float, fun h => by cases h; assumption⟩

theorem beyond_decimal {d : Decimal} : d.toBinary64.isFinite = false ↔ (Value.decimal d).Beyond :=
  ⟨.decimal, fun h => by cases h; assumption⟩

/-- A number that is written as a float is not reported if no float stands for it. -/
theorem reports_ofFloat {f : Value → Except CodecError WireValue} {x : Binary64} (hlist : ∀ items, v ≠ .list items)
    (hmapping : ∀ entries, v ≠ .mapping entries) (hv : v ≠ .null) (h : f v = .ok (.ofFloat x))
    (hx : x.isFinite = false ↔ v.Beyond) : Reports f v ↔ ¬ v.Beyond := by
  have hnull : f v = .ok .null ↔ v.Beyond := by rw [h, Except.ok.injEq, WireValue.ofFloat_eq_null, hx]
  rw [reports_leaf hlist hmapping, hnull]
  constructor
  · rintro ⟨hkept, -⟩ hbeyond
    exact hv (hkept hbeyond)
  · intro hno
    exact ⟨fun hbeyond => absurd hbeyond hno, fun hbeyond => absurd hbeyond hno⟩

theorem reports_float (v : Value) : Reports float.serialize v ↔ ¬ v.Beyond := by
  cases v with
  | number n => exact reports_ofFloat nofun nofun nofun rfl isFinite_toBinary64
  | decimal d => exact reports_ofFloat nofun nofun nofun rfl beyond_decimal
  | _ => exact iff_of_true (reports_of_error rfl) nofun

theorem reports_decimal (v : Value) : Reports decimal.serialize v ↔ ¬ v.Beyond := by
  cases v with
  | number n => exact reports_ofFloat nofun nofun nofun rfl isFinite_toBinary64
  | decimal d => exact reports_ofFloat nofun nofun nofun rfl beyond_decimal
  | _ => exact iff_of_true (reports_of_error rfl) nofun

theorem reports_dictionary (v : Value) :
    Reports dictionary.serialize v ↔ ¬ ((∃ entries, v = .mapping entries) ∧ v.Hushed) := by
  cases v with
  | mapping entries =>
    have hwrites (w : WireValue) : dictionary.serialize (.mapping entries) = .ok w ↔
        (Value.mapping entries).toWire = .ok w := by
      simp only [dictionary]
      cases (Value.mapping entries).toWire <;> simp [refuse]
    rw [reports_congr hwrites, reports_toWire, and_iff_right ⟨entries, rfl⟩]
  | _ => exact iff_of_true (reports_of_error rfl) (fun h => nomatch h.1)

/-- A float that is not finite denotes no integer. -/
theorem reports_int (v : Value) : Reports int.serialize v := by
  cases v with
  | number n =>
    rw [reports_leaf (by simp) (by simp)]
    constructor
    · simp only [int, Value.asInt64?]
      cases n.asInt64? <;> simp [refuse]
    · intro hbeyond
      cases hbeyond with
      | float hx =>
        left
        simp only [int, Value.asInt64?, HostNumber.asInt64?, Binary64.isIntegral, hx, Bool.false_and,
          Bool.false_eq_true, if_false]
        exact ⟨_, rfl⟩
  | _ => exact reports_of_error rfl

theorem reports_boolean (v : Value) : Reports boolean.serialize v := by
  cases v with
  | bool b =>
    rw [reports_leaf (by simp) (by simp)]
    exact ⟨nofun, nofun⟩
  | _ => exact reports_of_error rfl

theorem reports_string (v : Value) : Reports string.serialize v := by
  cases v with
  | string text => exact reports_of_string rfl
  | bool b => exact reports_of_string rfl
  | number n => exact reports_of_string rfl
  | _ => exact reports_of_error rfl

theorem reports_id (v : Value) : Reports id.serialize v := by
  cases htext : idText? v with
  | none => exact reports_of_error (by simp only [id, htext, refuse]; rfl)
  | some text =>
    have hwritten : id.serialize v = .ok (.string (encodeId text)) := by simp only [id, htext]
    exact reports_of_string hwritten

theorem reports_dateTime (v : Value) : Reports dateTime.serialize v := by
  cases v with
  | moment m => exact reports_of_string rfl
  | _ => exact reports_of_error rfl

end ScalarCodec

/-- What a scalar writes as null, or with a null inside, though it is something else. -/
def ScalarType.Hushes (t : ScalarType) (v : Value) : Prop :=
  (t.wireName = "Float" ∨ t.wireName = "Decimal") ∧ v.Beyond ∨
    t.wireName = "Dictionary" ∧ (∃ entries, v = .mapping entries) ∧ v.Hushed

/-- The scalars that every schema knows, and the plain form, never write null for something else and refuse what the
wire cannot represent. Exceptions are numbers that are none on the wire at `Float` and `Decimal`, and decimals beyond
the floats in plain forms and dictionaries, if nothing else there is refused. -/
theorem nulls_reported_iff (v : Value) :
    (∀ t ∈ defaultScalars, Value.Reports t.codec.serialize v ↔ ¬ t.Hushes v) ∧
    (Value.Reports Value.toWire v ↔ ¬ v.Hushed) := by
  refine ⟨?_, Value.reports_toWire v⟩
  simp only [defaultScalars, List.forall_mem_cons, List.not_mem_nil, false_imp_iff, implies_true, and_true]
  simp only [ScalarType.Hushes, ScalarCodec.reports_float, ScalarCodec.reports_decimal,
    ScalarCodec.reports_dictionary, ScalarCodec.reports_int, ScalarCodec.reports_boolean,
    ScalarCodec.reports_string, ScalarCodec.reports_id, ScalarCodec.reports_dateTime]
  simp

/-- A price in a dictionary is reported. -/
theorem price_reported : defaultScalars[7]? = some ⟨"Dictionary", "Dictionary",
      some "An arbitrary mapping of names to values", false, .dictionary⟩ ∧
    Value.Reports ScalarCodec.dictionary.serialize (.mapping [("price", .decimal ⟨15, 1⟩)]) := by
  have hmem : defaultScalars[7]? = some ⟨"Dictionary", "Dictionary",
      some "An arbitrary mapping of names to values", false, .dictionary⟩ := rfl
  refine ⟨hmem, ((nulls_reported_iff _).1 _ (List.mem_of_getElem? hmem)).mpr ?_⟩
  have hfinite : (Decimal.mk 15 1).toBinary64.isFinite = true := by decide +kernel
  rintro (⟨hname, -⟩ | ⟨-, -, hover, -⟩)
  · simp at hname
  · have hprice : Value.Inside Value.Overflows (.decimal ⟨15, 1⟩) := by
      simpa using (Value.inside_mapping nofun).mp hover
    cases (Value.inside_leaf (by simp) (by simp)).mp hprice with
    | decimal h => exact absurd (hfinite.symm.trans h) (by decide)

/-- Infinity is written as null, and so is a decimal beyond the floats in a list. -/
theorem infinity_silenced :
    ScalarCodec.float.serialize (.number (.float (.infinity false))) = .ok .null ∧
    (Value.list [.decimal ⟨1, -400⟩]).toWire = .ok (.list [.null]) ∧
    ¬ Value.Reports ScalarCodec.float.serialize (.number (.float (.infinity false))) ∧
    ¬ Value.Reports Value.toWire (.list [.decimal ⟨1, -400⟩]) := by
  have hfloat : ScalarCodec.float.serialize (.number (.float (.infinity false))) = .ok .null := rfl
  have hover : (Decimal.mk 1 (-400)).toBinary64.isFinite = false := by decide +kernel
  have hlist : (Value.list [.decimal ⟨1, -400⟩]).toWire = .ok (.list [.null]) := by
    simp only [Value.toWire, Value.itemsToWire, WireValue.ofFloat_eq_null.mpr hover]
    rfl
  have hnumber : Value.number (.float (.infinity false)) ≠ .null := by simp
  have hdecimal : Value.decimal ⟨1, -400⟩ ≠ .null := by simp
  refine ⟨hfloat, hlist, fun h => h.kept _ hfloat (.here hnumber), fun h => ?_⟩
  exact h.kept _ hlist (.item List.mem_cons_self (.here hdecimal))

end RecordGraph
