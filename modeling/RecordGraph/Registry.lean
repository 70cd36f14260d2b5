import RecordGraph.Entries
/-!
Registries: values under names, in order of registration. A name keeps the number and the place of
its first registration for good, whatever is stored there later, so a number can be handed out
before the value is complete.
-/

namespace RecordGraph

/-- Numbered slots and an index from names to them, which lists the slots in order. -/
structure Registry (α : Type u) where
  slots : Array α
  index : Entries Nat
  numbered : index.map Prod.snd = List.range slots.size

namespace Registry

/-- The registry that holds nothing. -/
def empty : Registry α := ⟨#[], [], rfl⟩

instance : Inhabited (Registry α) := ⟨empty⟩

/-- The number of a name. -/
def id? (r : Registry α) (name : String) : Option Nat := Entries.get? r.index name

/-- The value in a slot. -/
def slot? (r : Registry α) (id : Nat) : Option α := r.slots[id]?

/-- The value under a name. -/
def get? (r : Registry α) (name : String) : Option α := (r.id? name).bind r.slot?

/-- How many names are registered. -/
def size (r : Registry α) : Nat := r.slots.size

/-- Registers a value under a name and answers the number of the name. A name that is registered
already keeps its value. -/
def add (r : Registry α) (name : String) (value : α) : Registry α × Nat :=
  match r.id? name with
  | some id => (r, id)
  | none =>
    (⟨r.slots.push value, r.index ++ [(name, r.slots.size)], by
      simpa [List.range_succ] using r.numbered⟩, r.slots.size)

/-- Stores a value in a slot, if there is such a slot. -/
def setSlot (r : Registry α) (id : Nat) (value : α) : Registry α :=
  ⟨r.slots.setIfInBounds id value, r.index, by simpa using r.numbered⟩

/-- Stores a value under a registered name. -/
def set (r : Registry α) (name : String) (value : α) : Registry α :=
  match r.id? name with
  | some id => r.setSlot id value
  | none => r

/-- The registered names, in order. -/
def names (r : Registry α) : List String := r.index.map Prod.fst

/-- The values, in order of registration. -/
def values (r : Registry α) : List α := r.slots.toList

/-- The registry as a dictionary in order of registration. -/
def toEntries (r : Registry α) : Entries α := r.names.zip r.values

end Registry

end RecordGraph
