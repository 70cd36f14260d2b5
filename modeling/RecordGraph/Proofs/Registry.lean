import Mathlib.Data.List.Nodup
import RecordGraph.Registry
/-! What a reader of a registry sees of writing to it. A name that is registered keeps its place, so
adding changes no entry and storing changes one. Since slots are numbered by first registration, no
two names share a slot, which is what keeps a write to one name from showing under another. -/

namespace RecordGraph

namespace Entries

theorem get?_append (entries rest : Entries α) (name : String) :
    get? (entries ++ rest) name = (get? entries name).or (get? rest name) := by
  induction entries with
  | nil => rfl
  | cons entry entries ih =>
    rw [List.cons_append, get?_cons, get?_cons, ih]
    split <;> rfl

theorem mem_of_get? {entries : Entries α} {name : String} {value : α}
    (h : get? entries name = some value) : (name, value) ∈ entries := by
  induction entries with
  | nil => exact absurd h (by simp)
  | cons entry entries ih =>
    rw [get?_cons] at h
    split at h
    · rename_i hk
      cases h; subst hk
      exact List.mem_cons_self
    · exact List.mem_cons_of_mem _ (ih h)

theorem get?_of_mem {entries : Entries α} {name : String} {value : α}
    (hn : (entries.map Prod.fst).Nodup) (h : (name, value) ∈ entries) : get? entries name = some value := by
  induction entries with
  | nil => exact absurd h List.not_mem_nil
  | cons entry entries ih =>
    rw [List.map_cons, List.nodup_cons] at hn
    rw [get?_cons]
    rcases List.mem_cons.mp h with rfl | h
    · rw [if_pos rfl]
    · rw [if_neg, ih hn.2 h]
      rintro rfl
      exact hn.1 (List.mem_map.mpr ⟨_, h, rfl⟩)

theorem get?_eq_none {entries : Entries α} {name : String} :
    get? entries name = none ↔ name ∉ entries.map Prod.fst := by
  induction entries with
  | nil => simp
  | cons entry entries ih =>
    rw [get?_cons, List.map_cons, List.mem_cons, not_or]
    split
    · rename_i hk
      simp [hk]
    · rename_i hk
      rw [ih]
      exact ⟨fun h => ⟨fun e => hk e.symm, h⟩, And.right⟩

end Entries

namespace Registry

variable {α : Type u} {r : Registry α} {name other : String} {value : α}

theorem id?_lt {id : Nat} (h : r.id? name = some id) : id < r.slots.size := by
  have hm : id ∈ r.index.map Prod.snd := List.mem_map_of_mem (Entries.mem_of_get? h)
  rw [r.numbered] at hm
  exact List.mem_range.mp hm

theorem id?_inj {id : Nat} (h : r.id? name = some id) (h' : r.id? other = some id) : name = other := by
  have hn : (r.index.map Prod.snd).Nodup := r.numbered ▸ List.nodup_range
  exact congrArg Prod.fst (List.inj_on_of_nodup_map hn (Entries.mem_of_get? h) (Entries.mem_of_get? h') rfl)

theorem get?_eq_none : r.get? name = none ↔ r.id? name = none := by
  cases h : r.id? name with
  | none => simp [get?, h]
  | some id => simp [get?, h, slot?, id?_lt h]

theorem get?_eq_none_iff_names : r.get? name = none ↔ name ∉ r.names :=
  get?_eq_none.trans Entries.get?_eq_none

theorem add_of_mem (h : r.get? name ≠ none) : (r.add name value).1 = r := by
  rw [ne_eq, get?_eq_none] at h
  obtain ⟨id, hid⟩ := Option.ne_none_iff_exists'.mp h
  simp [add, hid]

theorem slots_add (h : r.get? name = none) : (r.add name value).1.slots = r.slots.push value := by
  rw [get?_eq_none] at h
  simp [add, h]

theorem index_add (h : r.get? name = none) :
    (r.add name value).1.index = r.index ++ [(name, r.slots.size)] := by
  rw [get?_eq_none] at h
  simp [add, h]

theorem id?_add (h : r.get? name = none) (other : String) :
    (r.add name value).1.id? other = (r.id? other).or (if name = other then some r.slots.size else none) := by
  rw [id?, index_add h, Entries.get?_append]
  rfl

@[simp] theorem get?_add_self (h : r.get? name = none) : (r.add name value).1.get? name = some value := by
  rw [get?, id?_add h, get?_eq_none.mp h]
  simp [slot?, slots_add h]

theorem get?_add_of_ne (hne : name ≠ other) : (r.add name value).1.get? other = r.get? other := by
  by_cases h : r.get? name = none
  · rw [get?, id?_add h, if_neg hne, Option.or_none, get?]
    cases ho : r.id? other with
    | none => rfl
    | some id => simp [slot?, slots_add h, Array.getElem?_push, Nat.ne_of_lt (id?_lt ho)]
  · rw [add_of_mem h]

/-- Adding leaves every entry that is there. -/
theorem get?_add_of_some {other : String} {old : α} (h : r.get? other = some old) :
    (r.add name value).1.get? other = some old := by
  by_cases hne : name = other
  · subst hne
    rw [add_of_mem (by simp [h]), h]
  · rw [get?_add_of_ne hne, h]

theorem id?_set (other : String) : (r.set name value).id? other = r.id? other := by
  unfold set
  split <;> rfl

theorem get?_set_self (h : r.get? name ≠ none) : (r.set name value).get? name = some value := by
  rw [ne_eq, get?_eq_none] at h
  obtain ⟨id, hid⟩ := Option.ne_none_iff_exists'.mp h
  rw [get?, id?_set, hid]
  simp [slot?, set, hid, setSlot, id?_lt hid]

theorem get?_set_of_ne (hne : name ≠ other) : (r.set name value).get? other = r.get? other := by
  rw [get?, id?_set, get?]
  cases ho : r.id? other with
  | none => rfl
  | some id =>
    cases hn : r.id? name with
    | none => simp [set, hn]
    | some id' =>
      -- two names never share a slot
      have hid : id' ≠ id := fun e => hne (id?_inj (e ▸ hn) ho)
      simp [slot?, set, hn, setSlot, hid]

theorem mem_values_of_get? (h : r.get? name = some value) : value ∈ r.values := by
  unfold get? at h
  obtain ⟨id, -, hslot⟩ := Option.bind_eq_some_iff.mp h
  exact Array.mem_toList_iff.mpr (Array.mem_of_getElem? hslot)

/-- Every value stands under a name. -/
theorem exists_of_mem_values (hn : r.names.Nodup) (h : value ∈ r.values) :
    ∃ name, r.get? name = some value := by
  obtain ⟨id, hid, rfl⟩ := List.mem_iff_getElem.mp h
  have hlt : id < r.slots.size := by simpa [values] using hid
  have hm : id ∈ r.index.map Prod.snd := by rw [r.numbered]; exact List.mem_range.mpr hlt
  obtain ⟨⟨name, id'⟩, hentry, rfl⟩ := List.mem_map.mp hm
  refine ⟨name, ?_⟩
  rw [get?, id?, Entries.get?_of_mem hn hentry]
  simp [slot?, values, hlt]

theorem names_add (h : r.get? name = none) : (r.add name value).1.names = r.names ++ [name] := by
  simp [names, index_add h]

theorem names_set : (r.set name value).names = r.names := by
  unfold set
  split <;> rfl

theorem names_prefix_add : r.names <+: (r.add name value).1.names := by
  by_cases h : r.get? name = none
  · rw [names_add h]
    exact List.prefix_append _ _
  · exact ⟨[], by rw [add_of_mem h, List.append_nil]⟩

theorem nodup_names_add (h : r.names.Nodup) : (r.add name value).1.names.Nodup := by
  by_cases hn : r.get? name = none
  · rw [names_add hn]
    exact h.append (List.nodup_singleton _) (by simpa [get?_eq_none_iff_names] using hn)
  · rw [add_of_mem hn]; exact h

end Registry

end RecordGraph
