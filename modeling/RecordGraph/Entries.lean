/-!
Ordered dictionaries: lists of named entries in order of first insertion. A name stands at most
once in a dictionary built by `insert`, and inserting under a present name replaces its value
where it stands.
-/

namespace RecordGraph

/-- The entries of a dictionary, in order of first insertion. -/
abbrev Entries (α : Type u) := List (String × α)

namespace Entries

/-- The value of the first entry under `name`. -/
def get? (entries : Entries α) (name : String) : Option α :=
  match entries with
  | [] => none
  | (key, value) :: rest => if key = name then some value else get? rest name

/-- Whether an entry stands under `name`. -/
def contains (entries : Entries α) (name : String) : Bool :=
  entries.any fun entry => entry.1 == name

/-- Puts `value` under `name`: in place of the value already there, else at the end. -/
def insert (entries : Entries α) (name : String) (value : α) : Entries α :=
  match entries with
  | [] => [(name, value)]
  | (key, old) :: rest =>
    if key = name then (key, value) :: rest else (key, old) :: insert rest name value

/-- Removes the entries under `name`. -/
def erase (entries : Entries α) (name : String) : Entries α :=
  entries.filter fun entry => entry.1 != name

/-- Inserts the given pairs in turn: a repeated name keeps its first place and its last value. -/
def ofPairs (pairs : List (String × α)) : Entries α :=
  pairs.foldl (fun entries pair => insert entries pair.1 pair.2) []

/-- The names, in order. -/
def names (entries : Entries α) : List String := entries.map Prod.fst

/-- The values, in order. -/
def values (entries : Entries α) : List α := entries.map Prod.snd

@[simp] theorem get?_nil (name : String) : get? ([] : Entries α) name = none := rfl

/-- The first entry counts. -/
theorem get?_cons (key name : String) (value : α) (rest : Entries α) :
    get? ((key, value) :: rest) name = if key = name then some value else get? rest name := rfl

/-- Reading after writing: the name written answers the value written, any other is untouched. -/
theorem get?_insert (entries : Entries α) (name other : String) (value : α) :
    get? (insert entries name value) other =
      if name = other then some value else get? entries other := by
  induction entries with
  | nil => simp [insert, get?]
  | cons entry rest ih =>
    obtain ⟨key, old⟩ := entry
    by_cases h : key = name
    · subst h
      by_cases h' : key = other <;> simp [insert, get?, h']
    · by_cases h' : key = other
      · subst h'
        simp [insert, get?, h, Ne.symm h]
      · simp [insert, get?, h, h', ih]

end Entries

end RecordGraph
