import Mathlib.Data.List.Nodup
import RecordGraph.Proofs.Registry
/-! A registry answers like a roll, which is nothing but a list of names with their values in order of first
registration. In a roll the number of a name is its place. So slots and index never drift apart, whatever is
registered, looked up or stored, and by which way. -/

namespace RecordGraph

namespace Registry

/-- Something done with a registry: registering under a name, looking up a name, and storing under a name or in a
slot. -/
inductive Step (α : Type u) where
  | add (name : String) (value : α)
  | get (name : String)
  | set (name : String) (value : α)
  | setSlot (id : Nat) (value : α)

/-- What is answered: the number of a name, or the value that was there. -/
inductive Answer (α : Type u) where
  | number (id : Nat)
  | value (found : Option α)

/-- Takes a step. -/
def step (r : Registry α) : Step α → Registry α × Answer α
  | .add name value => ((r.add name value).1, .number (r.add name value).2)
  | .get name => (r, .value (r.get? name))
  | .set name value => (r.set name value, .value (r.get? name))
  | .setSlot id value => (r.setSlot id value, .value (r.slot? id))

/-- Takes steps one after the other, with the answer to each. -/
def run (r : Registry α) : List (Step α) → Registry α × List (Answer α)
  | [] => (r, [])
  | s :: steps => (((r.step s).1.run steps).1, (r.step s).2 :: ((r.step s).1.run steps).2)

/-- The name that a step registers. -/
def Step.added? : Step α → Option String
  | .add name _ => some name
  | _ => none

/-- The names that are registered, each where it is added first. -/
def addedNames (steps : List (Step α)) : List String := (steps.filterMap Step.added?).eraseDups

end Registry

/-- Names with their values, in order of first registration. -/
abbrev Roll (α : Type u) := List (String × α)

namespace Roll

/-- The names, in order. -/
def names (roll : Roll α) : List String := roll.map Prod.fst

/-- The number of a name is its place. -/
def number? (roll : Roll α) (name : String) : Option Nat := roll.names.idxOf? name

/-- Takes a step: a new name goes to the end, a known one keeps its place. -/
def step (roll : Roll α) : Registry.Step α → Roll α × Registry.Answer α
  | .add name value =>
    match roll.number? name with
    | some id => (roll, .number id)
    | none => (roll ++ [(name, value)], .number roll.length)
  | .get name => (roll, .value (Entries.get? roll name))
  | .set name value =>
    (roll.map fun entry => if entry.1 = name then (name, value) else entry, .value (Entries.get? roll name))
  | .setSlot id value => (roll.modify id fun entry => (entry.1, value), .value (roll[id]?.map Prod.snd))

/-- Takes steps one after the other, with the answer to each. -/
def run (roll : Roll α) : List (Registry.Step α) → Roll α × List (Registry.Answer α)
  | [] => (roll, [])
  | s :: steps => ((Roll.run (roll.step s).1 steps).1, (roll.step s).2 :: (Roll.run (roll.step s).1 steps).2)

end Roll

namespace Registry

variable {α : Type u} {r : Registry α} {name other : String} {id : Nat} {value : α}

/-! What is seen of a registry, seen in its entries. -/

theorem length_names (r : Registry α) : r.names.length = r.slots.size := by
  have h := congrArg List.length r.numbered
  simpa [names] using h

theorem map_fst_toEntries (r : Registry α) : r.toEntries.map Prod.fst = r.names := by
  apply List.map_fst_zip
  simp [length_names, values]

theorem map_snd_toEntries (r : Registry α) : r.toEntries.map Prod.snd = r.values := by
  apply List.map_snd_zip
  simp [length_names, values]

theorem length_toEntries (r : Registry α) : r.toEntries.length = r.size := by
  rw [← List.length_map Prod.fst, map_fst_toEntries, length_names, size]

theorem get?_zip_range' (names : List String) (start : Nat) (name : String) :
    Entries.get? (names.zip (List.range' start names.length)) name = (names.idxOf? name).map (start + ·) := by
  induction names generalizing start with
  | nil => rfl
  | cons first names ih =>
    rw [List.length_cons, List.range'_succ, List.zip_cons_cons, Entries.get?_cons, ih, List.idxOf?_cons]
    by_cases h : first = name
    · simp [h]
    · simp [h, Nat.add_assoc, Nat.add_comm 1, Function.comp_def]

/-- The index says where a name stands. -/
theorem id?_eq (r : Registry α) (name : String) : r.id? name = r.names.idxOf? name := by
  have hindex : r.index = r.names.zip (List.range' 0 r.names.length) := by
    rw [length_names, ← List.range_eq_range', ← r.numbered]
    exact List.zip_of_prod rfl rfl
  rw [id?, hindex, get?_zip_range']
  simp

theorem get?_zip (names : List String) (values : List α) (name : String) :
    Entries.get? (names.zip values) name = (names.idxOf? name).bind (values[·]?) := by
  induction names generalizing values with
  | nil => rfl
  | cons first names ih =>
    cases values with
    | nil =>
      cases (first :: names).idxOf? name <;> rfl
    | cons value values =>
      rw [List.zip_cons_cons, Entries.get?_cons, ih, List.idxOf?_cons]
      by_cases h : first = name
      · simp [h]
      · rw [if_neg h, if_neg (by simpa using h), Option.bind_map]
        rfl

theorem get?_toEntries (r : Registry α) (name : String) : Entries.get? r.toEntries name = r.get? name := by
  have hvalues (id : Nat) : r.values[id]? = r.slot? id := by simp [values, slot?]
  rw [toEntries, get?_zip, get?, id?_eq]
  simp only [hvalues]

theorem slot?_eq (r : Registry α) (id : Nat) : r.slot? id = r.toEntries[id]?.map Prod.snd := by
  rw [← List.getElem?_map, map_snd_toEntries]
  simp [slot?, values]

/-! What a step does to the entries. -/

theorem toEntries_add (h : r.id? name = none) :
    (r.add name value).1.toEntries = r.toEntries ++ [(name, value)] := by
  have hnone : r.get? name = none := get?_eq_none.mpr h
  rw [toEntries, names_add hnone, values, slots_add hnone, Array.toList_push, List.zip_append]
  · rfl
  · simp [length_names]

theorem zip_set (names : List String) (values : List α) (id : Nat) (value : α) :
    names.zip (values.set id value) = (names.zip values).modify id fun entry => (entry.1, value) := by
  induction names generalizing values id with
  | nil => simp
  | cons name names ih =>
    cases values with
    | nil => simp
    | cons old values =>
      cases id with
      | zero => rfl
      | succ id => simp [ih]

theorem toEntries_setSlot (r : Registry α) (id : Nat) (value : α) :
    (r.setSlot id value).toEntries = r.toEntries.modify id fun entry => (entry.1, value) := by
  rw [toEntries, toEntries, ← zip_set]
  simp [names, values, setSlot]

theorem map_of_not_mem {roll : Roll α} {f : String × α → String × α} (h : name ∉ roll.names) :
    (roll.map fun entry => if entry.1 = name then f entry else entry) = roll := by
  conv => rhs; rw [← List.map_id roll]
  refine List.map_congr_left fun entry hentry => if_neg fun hname => h ?_
  exact List.mem_map.mpr ⟨entry, hentry, hname⟩

/-- The entry in the place of a name is the only one of that name. -/
theorem modify_eq_map {roll : Roll α} {f : String × α → String × α} (hn : roll.names.Nodup)
    (h : roll.number? name = some id) :
    roll.modify id f = roll.map fun entry => if entry.1 = name then f entry else entry := by
  induction roll generalizing id with
  | nil => cases h
  | cons first rest ih =>
    rw [Roll.names, List.map_cons, List.nodup_cons] at hn
    rw [Roll.number?, Roll.names, List.map_cons, List.idxOf?_cons] at h
    by_cases hname : first.1 = name
    · obtain rfl : 0 = id := by simpa [hname] using h
      rw [List.modify_zero_cons, List.map_cons, if_pos hname, map_of_not_mem (hname ▸ hn.1)]
    · obtain ⟨place, hplace, rfl⟩ : ∃ place, Roll.number? rest name = some place ∧ place + 1 = id := by
        simpa [hname, Roll.number?, Roll.names] using h
      rw [List.modify_succ_cons, List.map_cons, if_neg hname, ih hn.2 hplace]

theorem number?_toEntries (r : Registry α) (name : String) : Roll.number? r.toEntries name = r.id? name := by
  rw [id?_eq, Roll.number?, Roll.names, map_fst_toEntries]

theorem toEntries_set (hn : r.names.Nodup) (name : String) (value : α) : (r.set name value).toEntries =
    r.toEntries.map fun entry => if entry.1 = name then (name, value) else entry := by
  have hnames : Roll.names r.toEntries = r.names := map_fst_toEntries r
  cases h : r.id? name with
  | none =>
    have hmem : name ∉ r.names := get?_eq_none_iff_names.mp (get?_eq_none.mpr h)
    rw [set, h, map_of_not_mem (by rwa [hnames])]
  | some id =>
    have hset : r.set name value = r.setSlot id value := by rw [set, h]
    rw [hset, toEntries_setSlot, modify_eq_map (by rwa [hnames]) ((number?_toEntries r name).trans h)]
    refine List.map_congr_left fun entry _ => ?_
    split
    · rename_i hentry
      rw [hentry]
    · rfl

theorem nodup_names_step (hn : r.names.Nodup) (s : Step α) : (r.step s).1.names.Nodup := by
  cases s with
  | add name value => exact nodup_names_add hn
  | get name => exact hn
  | set name value => rwa [step, names_set]
  | setSlot id value => exact hn

/-- A registry takes a step like the roll of its entries, and answers the same. -/
theorem step_toEntries (hn : r.names.Nodup) (s : Step α) :
    Roll.step r.toEntries s = ((r.step s).1.toEntries, (r.step s).2) := by
  cases s with
  | add name value =>
    rw [Roll.step, number?_toEntries, length_toEntries]
    cases h : r.id? name with
    | none => simp only [step, toEntries_add h]; simp [add, h, size]
    | some id => simp [step, add, h]
  | get name => rw [Roll.step, get?_toEntries, step]
  | set name value => rw [Roll.step, get?_toEntries, step, toEntries_set hn]
  | setSlot id value => rw [Roll.step, ← slot?_eq, step, toEntries_setSlot]

theorem run_toEntries (hn : r.names.Nodup) (steps : List (Step α)) :
    Roll.run r.toEntries steps = ((r.run steps).1.toEntries, (r.run steps).2) := by
  induction steps generalizing r with
  | nil => rfl
  | cons s steps ih => simp only [Roll.run, run, step_toEntries hn, ih (nodup_names_step hn s)]

/-! What lasts. -/

theorem id?_step (h : r.id? name = some id) (s : Step α) : (r.step s).1.id? name = some id := by
  cases s with
  | add other value =>
    by_cases hother : r.get? other = none
    · rw [step, id?_add hother, h, Option.some_or]
    · rw [step, add_of_mem hother, h]
  | get other => exact h
  | set other value => rw [step, id?_set, h]
  | setSlot slot value => exact h

theorem id?_run (h : r.id? name = some id) (steps : List (Step α)) : (r.run steps).1.id? name = some id := by
  induction steps generalizing r with
  | nil => exact h
  | cons s steps ih => exact ih (id?_step h s)

/-- A new name goes to the end when it is added first, and is not registered again. -/
theorem names_run (r : Registry α) (steps : List (Step α)) : (r.run steps).1.names =
    r.names ++ ((steps.filterMap Step.added?).filter fun name => name ∉ r.names).eraseDups := by
  induction steps generalizing r with
  | nil => simp [run]
  | cons s steps ih =>
    rw [run, ih, List.filterMap_cons]
    cases s with
    | add name value =>
      by_cases h : r.get? name = none
      · have hmem : name ∉ r.names := get?_eq_none_iff_names.mp h
        simp [step, names_add h, Step.added?, hmem, List.eraseDups_cons, List.filter_filter, beq_eq_decide,
          Bool.and_comm]
      · have hmem : name ∈ r.names := not_imp_comm.mp get?_eq_none_iff_names.mpr h
        simp [step, add_of_mem h, Step.added?, hmem]
    | get name => rfl
    | set name value => simp [step, names_set, Step.added?]
    | setSlot id value => rfl

/-- What can be seen of a registry is what can be seen of a roll. -/
structure Shows (r : Registry α) (roll : Roll α) : Prop where
  size : r.size = roll.length
  names : r.names = roll.names
  values : r.values = roll.map Prod.snd
  id? : ∀ name, r.id? name = roll.number? name
  get? : ∀ name, r.get? name = Entries.get? roll name
  slot? : ∀ id, r.slot? id = roll[id]?.map Prod.snd

theorem shows_toEntries (r : Registry α) : r.Shows r.toEntries where
  size := (length_toEntries r).symm
  names := (map_fst_toEntries r).symm
  values := (map_snd_toEntries r).symm
  id? name := (number?_toEntries r name).symm
  get? name := (get?_toEntries r name).symm
  slot? := slot?_eq r

/-- What the number of a name is good for. -/
structure Numbers (r : Registry α) (name : String) (id : Nat) : Prop where
  /-- It is the number of no other name. -/
  own : ∀ other, r.id? other = some id → other = name
  /-- It stays the number of the name, and under it stands what stands under the name, whatever is done. -/
  lasting : ∀ steps, (r.run steps).1.id? name = some id ∧
    ∃ value, (r.run steps).1.get? name = some value ∧ (r.run steps).1.slot? id = some value
  /-- To add the name again changes nothing and answers the number. -/
  again : ∀ value, r.add name value = (r, id)
  /-- What is stored by the name or by the number is seen by both. -/
  stored : ∀ value, r.set name value = r.setSlot id value ∧
    (r.set name value).get? name = some value ∧ (r.set name value).slot? id = some value

theorem exists_slot? (h : r.id? name = some id) : ∃ value, r.get? name = some value ∧ r.slot? id = some value := by
  have hslot : r.get? name = r.slot? id := by rw [get?, h, Option.bind_some]
  have hsome : r.get? name ≠ none := by simp [get?_eq_none, h]
  obtain ⟨value, hvalue⟩ := Option.ne_none_iff_exists'.mp hsome
  exact ⟨value, hvalue, hslot ▸ hvalue⟩

theorem numbers_of_id? (h : r.id? name = some id) : r.Numbers name id where
  own other ho := id?_inj ho h
  lasting steps := ⟨id?_run h steps, exists_slot? (id?_run h steps)⟩
  again value := by rw [add, h]
  stored value := by
    have hget : (r.set name value).get? name = some value := get?_set_self (by simp [get?_eq_none, h])
    have hid : (r.set name value).id? name = some id := (id?_set name).trans h
    obtain ⟨stored, hstored, hslot⟩ := exists_slot? hid
    obtain rfl : value = stored := Option.some.inj (hget.symm.trans hstored)
    exact ⟨by rw [set, h], hget, hslot⟩

theorem id?_add_self (r : Registry α) (name : String) (value : α) :
    (r.add name value).1.id? name = some (r.add name value).2 := by
  cases h : r.id? name with
  | none =>
    rw [id?_add (get?_eq_none.mpr h), h, if_pos rfl, add, h, Option.none_or]
  | some id => rw [add, h, h]

theorem names_run_empty (steps : List (Step α)) : (empty.run steps).1.names = addedNames steps := by
  rw [names_run]
  simp [empty, names, addedNames]

theorem nodup_names_run (hn : r.names.Nodup) (steps : List (Step α)) : (r.run steps).1.names.Nodup := by
  induction steps generalizing r with
  | nil => exact hn
  | cons s steps ih => exact ih (nodup_names_step hn s)

/-- Each name stands for its value in the list of all values. -/
theorem map_get?_names (hn : r.names.Nodup) : r.names.map r.get? = r.values.map some := by
  rw [← map_fst_toEntries, ← map_snd_toEntries, List.map_map, List.map_map]
  refine List.map_congr_left fun entry hentry => ?_
  have hget : Entries.get? r.toEntries entry.1 = some entry.2 :=
    Entries.get?_of_mem (by rwa [map_fst_toEntries]) hentry
  rw [Function.comp_apply, Function.comp_apply, ← hget, get?_toEntries]

/-- Whatever is done with an empty registry, the answers are those of an empty roll, and so is all that can be seen
in the end. There are as many names as were ever added, in order of first registration, and as many values, each
the current one of its name. Adding answers the number of the name, which is good for everything that the name is
good for, and for good. -/
theorem run_as_roll (steps : List (Step α)) : ∃ (r : Registry α) (roll : Roll α) (answers : List (Answer α)),
    empty.run steps = (r, answers) ∧ Roll.run [] steps = (roll, answers) ∧ r.Shows roll ∧
    r.size = (addedNames steps).length ∧ (addedNames steps).map r.get? = r.values.map some ∧
    (∀ name value, (r.add name value).1.id? name = some (r.add name value).2) ∧
    ∀ {name id}, r.id? name = some id → r.Numbers name id := by
  have hnodup : (empty : Registry α).names.Nodup := List.nodup_nil
  have hnames := names_run_empty steps
  refine ⟨_, _, _, rfl, run_toEntries hnodup steps, shows_toEntries _, ?_, ?_, id?_add_self _, numbers_of_id?⟩
  · rw [← hnames, length_names, size]
  · rw [← hnames]
    exact map_get?_names (nodup_names_run hnodup steps)

end Registry

end RecordGraph
