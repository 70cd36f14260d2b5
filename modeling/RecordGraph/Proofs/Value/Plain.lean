import Mathlib.Data.List.Forall2
import RecordGraph.Value.Convert
import RecordGraph.Proofs.Except
/-! Plain forms of values. A value has none exactly if something inside it has none: a float that is not finite, a
source or a callable. A decimal beyond the floats has one, null, and that is the only way in which a null gets into a
plain form where the value has something else. -/

namespace RecordGraph

/-- The wire has no number for a float that is not finite. -/
theorem WireValue.ofFloat_eq_null {x : Binary64} : ofFloat x = .null ↔ x.isFinite = false := by
  rw [ofFloat, WireNumber.ofFloat?]
  by_cases hx : x.isFinite = true
  · simp [hx]
  · simp [Bool.eq_false_iff.mpr hx]

namespace Value

variable {v : Value} {w : WireValue} {items : List Value} {ws : List WireValue} {entries : List (String × Value)}
  {fields : List (String × WireValue)} {p : Value → Prop}

/-- Induction over the values that a value holds. -/
theorem induction_holds {P : Value → Prop} (list : ∀ items : List Value, (∀ v ∈ items, P v) → P (.list items))
    (mapping : ∀ entries : List (String × Value), (∀ e ∈ entries, P e.2) → P (.mapping entries))
    (leaf : ∀ v, (∀ items, v ≠ .list items) → (∀ entries, v ≠ .mapping entries) → P v) (v : Value) : P v :=
  @Value.rec P (fun _ => True) (fun _ => True) (fun _ => True) (fun items => ∀ v ∈ items, P v)
    (fun entries => ∀ e ∈ entries, P e.2) (fun _ => True) (fun _ => True) (fun e => P e.2) (fun _ => True)
    (leaf _ nofun nofun) (fun _ => leaf _ nofun nofun) (fun _ => leaf _ nofun nofun) (fun _ => leaf _ nofun nofun)
    list mapping (fun _ => leaf _ nofun nofun) (fun _ => leaf _ nofun nofun) (fun _ _ => leaf _ nofun nofun)
    (fun _ _ => leaf _ nofun nofun) (fun _ _ => leaf _ nofun nofun)
    (fun _ _ _ _ _ _ _ _ _ => trivial) (fun _ _ => trivial) (fun _ => trivial) (fun _ _ => trivial) trivial trivial
    (fun _ _ => trivial) (fun _ _ => trivial) (fun _ => trivial) (fun _ _ => trivial) (fun _ => trivial)
    (List.forall_mem_nil _) (fun _ _ hitem hrest => List.forall_mem_cons.mpr ⟨hitem, hrest⟩)
    (List.forall_mem_nil _) (fun _ _ hentry hrest => List.forall_mem_cons.mpr ⟨hentry, hrest⟩)
    trivial (fun _ _ _ _ => trivial) trivial (fun _ _ _ _ => trivial) (fun _ _ h => h) (fun _ _ _ => trivial) v

/-! Parts of a value. -/

/-- A value of some kind, or one that holds such a value at any depth. -/
inductive Inside (p : Value → Prop) : Value → Prop
  | here {v : Value} (h : p v) : Inside p v
  | item {v : Value} {items : List Value} (hmem : v ∈ items) (h : Inside p v) : Inside p (.list items)
  | entry {key : String} {v : Value} {entries : List (String × Value)} (hmem : (key, v) ∈ entries)
    (h : Inside p v) : Inside p (.mapping entries)

theorem inside_list (hp : ¬ p (.list items)) : Inside p (.list items) ↔ ∃ v ∈ items, Inside p v := by
  constructor
  · intro h
    cases h with
    | here h => exact absurd h hp
    | item hmem h => exact ⟨_, hmem, h⟩
  · rintro ⟨v, hmem, h⟩
    exact .item hmem h

theorem inside_mapping (hp : ¬ p (.mapping entries)) :
    Inside p (.mapping entries) ↔ ∃ e ∈ entries, Inside p e.2 := by
  constructor
  · intro h
    cases h with
    | here h => exact absurd h hp
    | entry hmem h => exact ⟨_, hmem, h⟩
  · rintro ⟨e, hmem, h⟩
    exact .entry hmem h

theorem inside_leaf (hlist : ∀ items, v ≠ .list items) (hmapping : ∀ entries, v ≠ .mapping entries) :
    Inside p v ↔ p v := by
  constructor
  · intro h
    cases h with
    | here h => exact h
    | item => exact absurd rfl (hlist _)
    | entry => exact absurd rfl (hmapping _)
  · exact .here

/-- A value that has no plain form by itself. -/
inductive Unwritten : Value → Prop
  | float {x : Binary64} (h : x.isFinite = false) : Unwritten (.number (.float x))
  | source (s : Source) : Unwritten (.source s)
  | callable (h : Handler) : Unwritten (.callable h)

/-- A decimal beyond the floats. -/
inductive Overflows : Value → Prop
  | decimal {d : Decimal} (h : d.toBinary64.isFinite = false) : Overflows (.decimal d)

/-! Plain forms. -/

theorem toWire_number {n : HostNumber} (h : (number n).toWire = .ok w) :
    ∃ k, n.toWire? = some k ∧ w = .number k := by
  rw [toWire] at h
  split at h
  · rename_i k hk
    cases h
    exact ⟨k, hk, rfl⟩
  · cases h

theorem itemsToWire_eq_ok :
    itemsToWire items = .ok ws ↔ List.Forall₂ (fun v w => v.toWire = .ok w) items ws := by
  induction items generalizing ws with
  | nil => simp [itemsToWire, eq_comm]
  | cons v items ih =>
    rw [itemsToWire, bind_eq_ok, List.forall₂_cons_left_iff]
    simp only [bind_eq_ok, ih]
    constructor
    · rintro ⟨w, hw, ws', hws, h⟩
      cases h
      exact ⟨w, ws', hw, hws, rfl⟩
    · rintro ⟨w, ws', hw, hws, rfl⟩
      exact ⟨w, hw, ws', hws, rfl⟩

theorem entriesToWire_eq_ok : entriesToWire entries = .ok fields ↔
    List.Forall₂ (fun e f => f.1 = e.1 ∧ e.2.toWire = .ok f.2) entries fields := by
  induction entries generalizing fields with
  | nil => simp [entriesToWire, eq_comm]
  | cons e entries ih =>
    obtain ⟨key, v⟩ := e
    rw [entriesToWire, bind_eq_ok, List.forall₂_cons_left_iff]
    simp only [bind_eq_ok, ih]
    constructor
    · rintro ⟨w, hw, fields', hfields, h⟩
      cases h
      exact ⟨(key, w), fields', ⟨rfl, hw⟩, hfields, rfl⟩
    · rintro ⟨⟨_, w⟩, fields', ⟨rfl, hw⟩, hfields, rfl⟩
      exact ⟨w, hw, fields', hfields, rfl⟩

theorem toWire_list_eq_ok : (list items).toWire = .ok w ↔
    ∃ ws, List.Forall₂ (fun v w => v.toWire = .ok w) items ws ∧ .list ws = w := by
  rw [toWire, map_eq_ok]
  simp only [itemsToWire_eq_ok]

theorem toWire_mapping_eq_ok : (mapping entries).toWire = .ok w ↔
    ∃ fields, List.Forall₂ (fun e f => f.1 = e.1 ∧ e.2.toWire = .ok f.2) entries fields ∧ .object fields = w := by
  rw [toWire, map_eq_ok]
  simp only [entriesToWire_eq_ok]

/-- A number has a plain form unless it is a float that is not finite. -/
theorem exists_toWire_number {n : HostNumber} : (∃ w, (number n).toWire = .ok w) ↔ ¬ Unwritten (.number n) := by
  cases n with
  | signed k => exact iff_of_true ⟨_, rfl⟩ nofun
  | unsigned k => exact iff_of_true ⟨_, rfl⟩ nofun
  | float x =>
    by_cases hx : x.isFinite = true
    · refine iff_of_true ⟨.number (.float x hx), ?_⟩ ?_
      · simp only [toWire, HostNumber.toWire?, WireNumber.ofFloat?, dif_pos hx]
      · rintro ⟨hno⟩
        rw [hx] at hno
        cases hno
    · refine iff_of_false ?_ (not_not_intro (.float (Bool.eq_false_iff.mpr hx)))
      rintro ⟨w, hw⟩
      obtain ⟨k, hk, -⟩ := toWire_number hw
      simp only [HostNumber.toWire?, WireNumber.ofFloat?, dif_neg hx] at hk
      cases hk

/-- A value has a plain form exactly if everything inside it has one. -/
theorem exists_toWire_iff (v : Value) : (∃ w, v.toWire = .ok w) ↔ ¬ Inside Unwritten v := by
  induction v using induction_holds with
  | list items ih =>
    have hall : (∃ w, (list items).toWire = .ok w) ↔ ∀ v ∈ items, ∃ w, v.toWire = .ok w := by
      rw [← exists_forall₂_iff]
      simp only [toWire_list_eq_ok]
      exact ⟨fun ⟨_, ws, h, _⟩ => ⟨ws, h⟩, fun ⟨ws, h⟩ => ⟨_, ws, h, rfl⟩⟩
    rw [hall, inside_list nofun, forall₂_congr ih]
    simp only [not_exists, not_and]
  | mapping entries ih =>
    have hall : (∃ w, (mapping entries).toWire = .ok w) ↔
        ∀ e ∈ entries, ∃ f : String × WireValue, f.1 = e.1 ∧ e.2.toWire = .ok f.2 := by
      rw [← exists_forall₂_iff]
      simp only [toWire_mapping_eq_ok]
      exact ⟨fun ⟨_, fields, h, _⟩ => ⟨fields, h⟩, fun ⟨fields, h⟩ => ⟨_, fields, h, rfl⟩⟩
    have hentry (e : String × Value) : (∃ f : String × WireValue, f.1 = e.1 ∧ e.2.toWire = .ok f.2) ↔
        ∃ w, e.2.toWire = .ok w := ⟨fun ⟨f, _, h⟩ => ⟨f.2, h⟩, fun ⟨w, h⟩ => ⟨(e.1, w), rfl, h⟩⟩
    simp only [hentry] at hall
    rw [hall, inside_mapping nofun, forall₂_congr ih]
    simp only [not_exists, not_and]
  | leaf v hlist hmapping =>
    rw [inside_leaf hlist hmapping]
    cases v with
    | list items => exact absurd rfl (hlist items)
    | mapping entries => exact absurd rfl (hmapping entries)
    | number n => exact exists_toWire_number
    | source s => exact iff_of_false nofun (not_not_intro (.source s))
    | callable h => exact iff_of_false nofun (not_not_intro (.callable h))
    | _ => exact iff_of_true ⟨_, rfl⟩ nofun

/-- A null in a wire value where the host value has something else. -/
inductive Silenced : Value → WireValue → Prop
  | here {v : Value} (h : v ≠ .null) : Silenced v .null
  | item {v : Value} {w : WireValue} {items : List Value} {ws : List WireValue} (hmem : (v, w) ∈ items.zip ws)
    (h : Silenced v w) : Silenced (.list items) (.list ws)
  | entry {key : String} {v : Value} {w : WireValue} {entries : List (String × Value)}
    {fields : List (String × WireValue)} (hmem : ((key, v), (key, w)) ∈ entries.zip fields)
    (h : Silenced v w) : Silenced (.mapping entries) (.object fields)

theorem silenced_leaf (hlist : ∀ items, v ≠ .list items) (hmapping : ∀ entries, v ≠ .mapping entries) :
    Silenced v w ↔ v ≠ .null ∧ w = .null := by
  constructor
  · intro h
    cases h with
    | here h => exact ⟨h, rfl⟩
    | item => exact absurd rfl (hlist _)
    | entry => exact absurd rfl (hmapping _)
  · rintro ⟨h, rfl⟩
    exact .here h

/-- Only a decimal beyond the floats is silenced in a plain form. -/
theorem silenced_iff (h : v.toWire = .ok w) : Silenced v w ↔ Inside Overflows v := by
  induction v using induction_holds generalizing w with
  | list items ih =>
    obtain ⟨ws, hws, rfl⟩ := toWire_list_eq_ok.mp h
    rw [inside_list nofun]
    constructor
    · intro hs
      cases hs with
      | item hzip hv =>
        have hmem := (List.of_mem_zip hzip).1
        exact ⟨_, hmem, (ih _ hmem (List.forall₂_zip hws hzip)).mp hv⟩
    · rintro ⟨v, hmem, hv⟩
      obtain ⟨w, hzip, hw⟩ := exists_mem_zip_of_mem_left hws hmem
      exact .item hzip ((ih v hmem hw).mpr hv)
  | mapping entries ih =>
    obtain ⟨fields, hfields, rfl⟩ := toWire_mapping_eq_ok.mp h
    rw [inside_mapping nofun]
    constructor
    · intro hs
      cases hs with
      | entry hzip hv =>
        have hmem := (List.of_mem_zip hzip).1
        exact ⟨_, hmem, (ih _ hmem (List.forall₂_zip hfields hzip).2).mp hv⟩
    · rintro ⟨⟨key, v⟩, hmem, hv⟩
      obtain ⟨⟨_, w⟩, hzip, rfl, hw⟩ := exists_mem_zip_of_mem_left hfields hmem
      exact .entry hzip ((ih _ hmem hw).mpr hv)
  | leaf v hlist hmapping =>
    rw [inside_leaf hlist hmapping, silenced_leaf hlist hmapping]
    cases v with
    | list items => exact absurd rfl (hlist items)
    | mapping entries => exact absurd rfl (hmapping entries)
    | null => exact iff_of_false (fun h => h.1 rfl) nofun
    | number n =>
      obtain ⟨k, -, rfl⟩ := toWire_number h
      exact iff_of_false (fun h => nomatch h.2) nofun
    | decimal d =>
      cases h
      rw [WireValue.ofFloat_eq_null]
      exact ⟨fun h => .decimal h.2, fun ⟨h⟩ => ⟨nofun, h⟩⟩
    | source s => cases h
    | callable f => cases h
    | _ =>
      cases h
      exact iff_of_false (fun h => nomatch h.2) nofun

end Value

end RecordGraph
