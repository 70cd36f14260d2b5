import RecordGraph.Proofs.Value.Plain
import RecordGraph.Proofs.Value.Same
/-! Plain forms there and back. A wire value comes back from its host form unless it has members or octets in it. A
host value comes back from its plain form exactly if it is built of nulls, booleans, finite numbers, strings, lists
and mappings; its integers without a sign then come back with one where they fit. Every other value has either no
plain form or one that something else shares. -/

namespace RecordGraph

namespace WireValue

/-- Induction over the values that a value holds. -/
theorem induction_holds {P : WireValue → Prop} (list : ∀ items : List WireValue, (∀ w ∈ items, P w) → P (.list items))
    (object : ∀ fields : List (String × WireValue), (∀ f ∈ fields, P f.2) → P (.object fields))
    (leaf : ∀ w, (∀ items, w ≠ .list items) → (∀ fields, w ≠ .object fields) → P w) (w : WireValue) : P w :=
  @WireValue.rec P (fun items => ∀ w ∈ items, P w) (fun fields => ∀ f ∈ fields, P f.2) (fun f => P f.2)
    (leaf _ nofun nofun) (fun _ => leaf _ nofun nofun) (fun _ => leaf _ nofun nofun) (fun _ => leaf _ nofun nofun)
    (fun _ => leaf _ nofun nofun) list object (fun _ => leaf _ nofun nofun)
    (List.forall_mem_nil _) (fun _ _ hitem hrest => List.forall_mem_cons.mpr ⟨hitem, hrest⟩)
    (List.forall_mem_nil _) (fun _ _ hfield hrest => List.forall_mem_cons.mpr ⟨hfield, hrest⟩)
    (fun _ _ h => h) w

/-- A value without members and octets, at any depth. -/
inductive Portable : WireValue → Prop
  | null : Portable .null
  | bool (value : Bool) : Portable (.bool value)
  | number (value : WireNumber) : Portable (.number value)
  | string (text : String) : Portable (.string text)
  | list {items : List WireValue} (h : ∀ w ∈ items, Portable w) : Portable (.list items)
  | object {fields : List (String × WireValue)} (h : ∀ f ∈ fields, Portable f.2) : Portable (.object fields)

theorem portable_list {items : List WireValue} : (list items).Portable ↔ ∀ w ∈ items, w.Portable := by
  refine ⟨fun h => ?_, .list⟩
  cases h with
  | list h => exact h

theorem portable_object {fields : List (String × WireValue)} :
    (object fields).Portable ↔ ∀ f ∈ fields, f.2.Portable := by
  refine ⟨fun h => ?_, .object⟩
  cases h with
  | object h => exact h

end WireValue

namespace HostNumber

/-- Every number but an infinity and what is no number. -/
def Finite : HostNumber → Prop
  | .float x => x.isFinite = true
  | _ => True

/-- A number in the form in which it comes back from the wire: an integer has a sign if it fits with one. -/
def settled : HostNumber → HostNumber
  | .unsigned n => if n.toNat < 0x8000000000000000 then .signed (Int64.ofNat n.toNat) else .unsigned n
  | n => n

variable {n : HostNumber} {w : WireNumber}

theorem settled_cases (n : HostNumber) : n.settled = n ∨ ∃ k j, n = .unsigned k ∧ n.settled = .signed j := by
  cases n with
  | unsigned k =>
    rw [settled]
    split
    · exact .inr ⟨k, _, rfl, rfl⟩
    · exact .inl rfl
  | _ => exact .inl rfl

/-- The integer stays the same when it gets a sign, and it gets one whenever there is one to get. -/
theorem settled_unsigned {k : UInt64} {j : Int64} : (unsigned k).settled = .signed j ↔ j.toInt = k.toNat := by
  have hlow := j.le_toInt
  have hhigh := j.toInt_lt
  have hofNat (h : k.toNat < 0x8000000000000000) : (Int64.ofNat k.toNat).toInt = k.toNat :=
    Int64.toInt_ofNat_of_lt h
  rw [settled]
  constructor
  · intro h
    split at h
    · case isTrue hk =>
      cases h
      exact hofNat hk
    · cases h
  · intro h
    have hk : k.toNat < 0x8000000000000000 := by omega
    rw [if_pos hk]
    apply congrArg
    apply Int64.toInt_inj.mp
    rw [hofNat hk, h]

/-- A number of the wire is written as itself in its host form. -/
theorem toWire?_ofWire (w : WireNumber) : (ofWire w).toWire? = some w := by
  cases w with
  | integer k hk =>
    rw [ofWire]
    split
    · have hint : (Int64.ofInt k).toInt = k := Int64.toInt_ofInt_of_le (by omega) (by omega)
      simp [toWire?, WireNumber.ofInt64, hint]
    · have hnat : ((UInt64.ofNat k.toNat).toNat : Int) = k := by
        rw [UInt64.toNat_ofNat']
        omega
      simp only [toWire?, WireNumber.ofUInt64, hnat]
  | float x hx => simp only [ofWire, toWire?, WireNumber.ofFloat?, dif_pos hx]

/-- What is read for a number that was written is the number as it comes back. -/
theorem ofWire_of_toWire? (h : n.toWire? = some w) : ofWire w = n.settled := by
  cases n with
  | signed k =>
    cases h
    have hlt : k.toInt < 0x8000000000000000 := k.toInt_lt
    simp only [WireNumber.ofInt64, ofWire, if_pos hlt, settled, Int64.ofInt_toInt]
  | unsigned k =>
    cases h
    simp only [WireNumber.ofUInt64, ofWire, settled]
    split
    · rw [if_pos (by omega)]
      rfl
    · rw [if_neg (by omega)]
      simp
  | float x =>
    obtain ⟨hx, rfl⟩ := toWire?_float h
    rfl

theorem exists_toWire?_iff : (∃ w, n.toWire? = some w) ↔ n.Finite := by
  cases n with
  | signed k => exact iff_of_true ⟨_, rfl⟩ trivial
  | unsigned k => exact iff_of_true ⟨_, rfl⟩ trivial
  | float x => simp [toWire?, WireNumber.ofFloat?, Finite]

end HostNumber

namespace Value

variable {v : Value} {w : WireValue} {items : List Value} {ws : List WireValue} {entries : List (String × Value)}
  {fields : List (String × WireValue)}

/-- A value built of nulls, booleans, finite numbers, strings, lists and mappings. -/
inductive Plain : Value → Prop
  | null : Plain .null
  | bool (value : Bool) : Plain (.bool value)
  | number {n : HostNumber} (h : n.Finite) : Plain (.number n)
  | string (text : String) : Plain (.string text)
  | list {items : List Value} (h : ∀ v ∈ items, Plain v) : Plain (.list items)
  | mapping {entries : List (String × Value)} (h : ∀ e ∈ entries, Plain e.2) : Plain (.mapping entries)

theorem plain_number {n : HostNumber} : (number n).Plain ↔ n.Finite := by
  refine ⟨fun h => ?_, .number⟩
  cases h with
  | number h => exact h

theorem plain_list : (list items).Plain ↔ ∀ v ∈ items, v.Plain := by
  refine ⟨fun h => ?_, .list⟩
  cases h with
  | list h => exact h

theorem plain_mapping : (mapping entries).Plain ↔ ∀ e ∈ entries, e.2.Plain := by
  refine ⟨fun h => ?_, .mapping⟩
  cases h with
  | mapping h => exact h

mutual

/-- A value with its numbers in the form in which they come back from the wire, and all else as it is. -/
def settled : Value → Value
  | .number n => .number n.settled
  | .list items => .list (settledItems items)
  | .mapping entries => .mapping (settledEntries entries)
  | v => v

/-- The items of a list, each with its numbers as they come back. -/
def settledItems : List Value → List Value
  | [] => []
  | item :: rest => settled item :: settledItems rest

/-- The entries of a mapping under their keys, each with its numbers as they come back. -/
def settledEntries : List (String × Value) → List (String × Value)
  | [] => []
  | (key, value) :: rest => (key, settled value) :: settledEntries rest

end

/-! Host forms of wire values. -/

theorem itemsToWire_ofWireItems : itemsToWire (ofWireItems ws) = .ok ws ↔ ∀ w ∈ ws, (ofWire w).toWire = .ok w := by
  induction ws with
  | nil => simp [ofWireItems, itemsToWire]
  | cons w ws ih =>
    rw [List.forall_mem_cons, ← ih, ofWireItems, itemsToWire]
    cases (ofWire w).toWire with
    | error e => simp [bind, Except.bind]
    | ok head => cases itemsToWire (ofWireItems ws) <;> simp [bind, Except.bind, pure, Except.pure]

theorem entriesToWire_ofWireFields :
    entriesToWire (ofWireFields fields) = .ok fields ↔ ∀ f ∈ fields, (ofWire f.2).toWire = .ok f.2 := by
  induction fields with
  | nil => simp [ofWireFields, entriesToWire]
  | cons f fields ih =>
    obtain ⟨name, w⟩ := f
    rw [List.forall_mem_cons, ← ih, ofWireFields, entriesToWire]
    cases (ofWire w).toWire with
    | error e => simp [bind, Except.bind]
    | ok head => cases entriesToWire (ofWireFields fields) <;> simp [bind, Except.bind, pure, Except.pure]

/-- A wire value is the plain form of its host form unless it has members or octets. -/
theorem toWire_ofWire_iff (w : WireValue) : (ofWire w).toWire = .ok w ↔ w.Portable := by
  induction w using WireValue.induction_holds with
  | list items ih =>
    have hitems : (ofWire (.list items)).toWire = .ok (.list items) ↔ itemsToWire (ofWireItems items) = .ok items := by
      rw [ofWire, toWire, map_eq_ok]
      simp
    rw [hitems, itemsToWire_ofWireItems, forall₂_congr ih, WireValue.portable_list]
  | object fields ih =>
    have hfields : (ofWire (.object fields)).toWire = .ok (.object fields) ↔
        entriesToWire (ofWireFields fields) = .ok fields := by
      rw [ofWire, toWire, map_eq_ok]
      simp
    rw [hfields, entriesToWire_ofWireFields, forall₂_congr ih, WireValue.portable_object]
  | leaf w hlist hobject =>
    cases w with
    | list items => exact absurd rfl (hlist items)
    | object fields => exact absurd rfl (hobject fields)
    | null => exact iff_of_true rfl .null
    | bool b => exact iff_of_true rfl (.bool b)
    | string s => exact iff_of_true rfl (.string s)
    | number n =>
      refine iff_of_true ?_ (.number n)
      simp only [ofWire, toWire, HostNumber.toWire?_ofWire]
    | member name => exact iff_of_false (by rintro ⟨⟩) (by rintro ⟨⟩)
    | binary octets =>
      refine iff_of_false ?_ (by rintro ⟨⟩)
      intro h
      rw [ofWire, toWire, map_eq_ok] at h
      obtain ⟨ws, -, hw⟩ := h
      cases hw

/-! Plain forms of host values. -/

theorem itemsToWire_map : (itemsToWire items).map ofWireItems = .ok (settledItems items) ↔
    ∀ v ∈ items, v.toWire.map ofWire = .ok v.settled := by
  induction items with
  | nil => simp [itemsToWire, settledItems, ofWireItems, Except.map]
  | cons v items ih =>
    rw [List.forall_mem_cons, ← ih, itemsToWire, settledItems]
    cases v.toWire with
    | error e => simp [bind, Except.bind, Except.map]
    | ok w => cases itemsToWire items <;> simp [bind, Except.bind, pure, Except.pure, Except.map, ofWireItems]

theorem entriesToWire_map : (entriesToWire entries).map ofWireFields = .ok (settledEntries entries) ↔
    ∀ e ∈ entries, e.2.toWire.map ofWire = .ok e.2.settled := by
  induction entries with
  | nil => simp [entriesToWire, settledEntries, ofWireFields, Except.map]
  | cons e entries ih =>
    obtain ⟨key, v⟩ := e
    rw [List.forall_mem_cons, ← ih, entriesToWire, settledEntries]
    cases v.toWire with
    | error e => simp [bind, Except.bind, Except.map]
    | ok w => cases entriesToWire entries <;> simp [bind, Except.bind, pure, Except.pure, Except.map, ofWireFields]

theorem number_returns_iff {n : HostNumber} :
    (number n).toWire.map ofWire = .ok (number n).settled ↔ n.Finite := by
  rw [← HostNumber.exists_toWire?_iff, toWire]
  cases hn : n.toWire? with
  | none => simp [Except.map]
  | some w => simp [Except.map, ofWire, settled, HostNumber.ofWire_of_toWire? hn]

/-- A value comes back from its plain form exactly if it is plain. -/
theorem returns_iff (v : Value) : v.toWire.map ofWire = .ok v.settled ↔ v.Plain := by
  induction v using induction_holds with
  | list items ih =>
    have hitems : (list items).toWire.map ofWire = .ok (list items).settled ↔
        (itemsToWire items).map ofWireItems = .ok (settledItems items) := by
      rw [toWire, settled]
      cases itemsToWire items <;> simp [Except.map, ofWire]
    rw [hitems, itemsToWire_map, forall₂_congr ih, plain_list]
  | mapping entries ih =>
    have hentries : (mapping entries).toWire.map ofWire = .ok (mapping entries).settled ↔
        (entriesToWire entries).map ofWireFields = .ok (settledEntries entries) := by
      rw [toWire, settled]
      cases entriesToWire entries <;> simp [Except.map, ofWire]
    rw [hentries, entriesToWire_map, forall₂_congr ih, plain_mapping]
  | leaf v hlist hmapping =>
    cases v with
    | list items => exact absurd rfl (hlist items)
    | mapping entries => exact absurd rfl (hmapping entries)
    | null => exact iff_of_true rfl .null
    | bool b => exact iff_of_true rfl (.bool b)
    | string s => exact iff_of_true rfl (.string s)
    | number n => exact number_returns_iff.trans plain_number.symm
    | decimal d =>
      -- The number that is written for a decimal comes back as a number, or as null.
      refine iff_of_false ?_ (by rintro ⟨⟩)
      rw [toWire, WireValue.ofFloat]
      cases WireNumber.ofFloat? d.toBinary64 <;> rintro ⟨⟩
    | _ => exact iff_of_false (by rintro ⟨⟩) (by rintro ⟨⟩)

/-- A value has no plain form exactly if something inside it has none. Decimals always have one. -/
theorem exists_toWire_error_iff (v : Value) : (∃ e, v.toWire = .error e) ↔ Inside Unwritten v := by
  rw [exists_error_iff, exists_toWire_iff, not_not]

/-- Wire values without members and octets come back from the host, and host values built of nulls, booleans, finite
numbers, strings, lists and mappings come back from the wire as they are, keys in order, but for integers without a
sign: these get one, and stay the same integer, where they fit. Conversion fails exactly where a float that is not
finite, a source or a callable stands somewhere in a value. -/
theorem plain_forms_return :
    (∀ w : WireValue, (ofWire w).toWire = .ok w ↔ w.Portable) ∧
    (∀ v : Value, v.toWire.map ofWire = .ok v.settled ↔ v.Plain) ∧
    (∀ n : HostNumber, n.settled = n ∨ ∃ k j, n = .unsigned k ∧ n.settled = .signed j) ∧
    (∀ (k : UInt64) (j : Int64), (HostNumber.unsigned k).settled = .signed j ↔ j.toInt = k.toNat) ∧
    (∀ v : Value, (∃ e, v.toWire = .error e) ↔ Inside Unwritten v) :=
  ⟨toWire_ofWire_iff, returns_iff, HostNumber.settled_cases, fun _ _ => HostNumber.settled_unsigned,
    exists_toWire_error_iff⟩

end Value

end RecordGraph
