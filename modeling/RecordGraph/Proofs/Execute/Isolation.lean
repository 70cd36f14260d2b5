import RecordGraph.Proofs.Execute.Occurrence
/-! One place in a response among all others. Whatever stands in it, the rest of the response is what it would
be without it, and so a field that fails is not noticed outside of its place. -/

namespace RecordGraph

mutual

/-- A response but for one place in it, where occurrences of fields may stand. -/
inductive Hole where
  /-- The place is between occurrences of an object. -/
  | here (before after : List Occurrence)
  /-- The place is somewhere in the value of an occurrence that stands between others. -/
  | within (before after : List Occurrence) (key : String) (inner : ContentHole)

/-- A value but for one place in it. -/
inductive ContentHole where
  | object (inner : Hole)
  | item (before after : List Content) (inner : ContentHole)

end

mutual

/-- The response with occurrences in the place. -/
def Hole.fill : Hole → List Occurrence → List Occurrence
  | .here before after, os => before ++ (os ++ after)
  | .within before after key inner, os => before ++ .resolved key (inner.fill os) :: after

def ContentHole.fill : ContentHole → List Occurrence → Content
  | .object inner, os => .object (inner.fill os)
  | .item before after inner, os => .list (before ++ inner.fill os :: after)

end

mutual

/-- The path to the object in which the place is. -/
def Hole.path : Hole → List PathSegment
  | .here _ _ => []
  | .within _ _ key inner => .key key :: inner.path

def ContentHole.path : ContentHole → List PathSegment
  | .object inner => inner.path
  | .item before _ inner => .index before.length :: inner.path

end

mutual

/-- The rest of the data takes no more notice of what stands in a place than of what it contributes. -/
theorem Hole.fields_fill (h : Hole) : ∃ around : List (String × WireValue) → List (String × WireValue),
    ∀ os, Occurrence.allFields (h.fill os) = around (Occurrence.allFields os) := by
  cases h with
  | here before after =>
    refine ⟨fun fields => Occurrence.allFields before ++ (fields ++ Occurrence.allFields after), fun os => ?_⟩
    simp only [Hole.fill, Occurrence.allFields_append]
  | within before after key inner =>
    obtain ⟨around, haround⟩ := inner.data_fill
    refine ⟨fun fields => Occurrence.allFields before ++
      (((around fields).map fun value => (key, value)).toList ++ Occurrence.allFields after), fun os => ?_⟩
    simp only [Hole.fill, Occurrence.allFields_append, Occurrence.allFields, Occurrence.fields, haround]

theorem ContentHole.data_fill (h : ContentHole) : ∃ around : List (String × WireValue) → Option WireValue,
    ∀ os, (h.fill os).data = around (Occurrence.allFields os) := by
  cases h with
  | object inner =>
    obtain ⟨around, haround⟩ := inner.fields_fill
    refine ⟨fun fields => some (Execution.object (around fields)), fun os => ?_⟩
    simp only [ContentHole.fill, Content.data, haround]
  | item before after inner =>
    obtain ⟨around, haround⟩ := inner.data_fill
    refine ⟨fun fields => ((Content.allData before).bind fun values => ((around fields).bind fun value =>
      (Content.allData after).map (value :: ·)).map (values ++ ·)).map .list, fun os => ?_⟩
    simp only [ContentHole.fill, Content.data, Content.allData_append, Content.allData, haround]

end

mutual

/-- All errors but those of what stands in a place stay as they are. -/
theorem Hole.errors_fill (h : Hole) (path : List PathSegment) : ∃ earlier later : List ResponseError,
    ∀ os, Occurrence.allErrors (h.fill os) path =
      earlier ++ (Occurrence.allErrors os (path ++ h.path) ++ later) := by
  cases h with
  | here before after =>
    refine ⟨Occurrence.allErrors before path, Occurrence.allErrors after path, fun os => ?_⟩
    simp only [Hole.fill, Hole.path, Occurrence.allErrors_append, List.append_nil]
  | within before after key inner =>
    obtain ⟨earlier, later, herrors⟩ := inner.errors_fill (path ++ [.key key])
    refine ⟨Occurrence.allErrors before path ++ earlier, later ++ Occurrence.allErrors after path, fun os => ?_⟩
    simp only [Hole.fill, Hole.path, Occurrence.allErrors_append, Occurrence.allErrors, Occurrence.errors,
      herrors, List.append_assoc, List.cons_append, List.nil_append]

theorem ContentHole.errors_fill (h : ContentHole) (path : List PathSegment) :
    ∃ earlier later : List ResponseError, ∀ os, (h.fill os).errors path =
      earlier ++ (Occurrence.allErrors os (path ++ h.path) ++ later) := by
  cases h with
  | object inner => exact inner.errors_fill path
  | item before after inner =>
    obtain ⟨earlier, later, herrors⟩ := inner.errors_fill (path ++ [.index before.length])
    refine ⟨Content.allErrors before path 0 ++ earlier,
      later ++ Content.allErrors after path (before.length + 1), fun os => ?_⟩
    simp only [ContentHole.fill, ContentHole.path, Content.errors, Content.allErrors_append,
      Content.allErrors, herrors, List.append_assoc, List.cons_append, List.nil_append, Nat.zero_add]

end

namespace Hole

/-- A place behind one more occurrence. -/
def behind (o : Occurrence) : Hole → Hole
  | here before after => here (o :: before) after
  | within before after key inner => within (o :: before) after key inner

@[simp] theorem fill_behind (o : Occurrence) (h : Hole) (os : List Occurrence) :
    (h.behind o).fill os = o :: h.fill os := by cases h <;> simp only [behind, fill, List.cons_append]

@[simp] theorem path_behind (o : Occurrence) (h : Hole) : (h.behind o).path = h.path := by
  cases h <;> simp only [behind, path]

end Hole

mutual

theorem Hole.exists_of_mem_allFailures {error : FieldError} {place : List PathSegment} (os : List Occurrence)
    (path : List PathSegment) (h : (error, place) ∈ Occurrence.allFailures os path) :
    ∃ (hole : Hole) (key : String) (type : TypeRef),
      os = hole.fill [.failed key type error] ∧ place = path ++ (hole.path ++ [.key key]) := by
  match os with
  | [] => cases h
  | o :: rest =>
    rcases List.mem_append.mp h with h | h
    -- The first occurrence has failed itself, or the failure is in its value.
    · match o with
      | .told _ _ => cases h
      | .failed key type _ =>
        cases List.mem_singleton.mp h
        exact ⟨.here [] rest, key, type, rfl, rfl⟩
      | .resolved key content =>
        obtain ⟨inner, last, type, rfl, rfl⟩ :=
          ContentHole.exists_of_mem_failures content (path ++ [.key key]) h
        exact ⟨.within [] rest key inner, last, type, rfl, List.append_assoc ..⟩
    · obtain ⟨hole, key, type, rfl, rfl⟩ := Hole.exists_of_mem_allFailures rest path h
      exact ⟨hole.behind o, key, type, (hole.fill_behind o _).symm, by rw [hole.path_behind]⟩

theorem ContentHole.exists_of_mem_failures {error : FieldError} {place : List PathSegment} (c : Content)
    (path : List PathSegment) (h : (error, place) ∈ c.failures path) :
    ∃ (hole : ContentHole) (key : String) (type : TypeRef),
      c = hole.fill [.failed key type error] ∧ place = path ++ (hole.path ++ [.key key]) := by
  match c with
  | .value _ => cases h
  | .misfit _ => cases h
  | .object os =>
    obtain ⟨hole, key, type, rfl, rfl⟩ := Hole.exists_of_mem_allFailures os path h
    exact ⟨.object hole, key, type, rfl, rfl⟩
  | .list items =>
    obtain ⟨before, after, inner, key, type, rfl, rfl⟩ :=
      ContentHole.exists_of_mem_allFailures items path 0 h
    refine ⟨.item before after inner, key, type, rfl, ?_⟩
    rw [ContentHole.path, Nat.zero_add, List.cons_append]

theorem ContentHole.exists_of_mem_allFailures {error : FieldError} {place : List PathSegment}
    (items : List Content) (path : List PathSegment) (position : Nat)
    (h : (error, place) ∈ Content.allFailures items path position) :
    ∃ (before after : List Content) (inner : ContentHole) (key : String) (type : TypeRef),
      items = before ++ inner.fill [.failed key type error] :: after ∧
        place = path ++ .index (position + before.length) :: (inner.path ++ [.key key]) := by
  match items with
  | [] => cases h
  | item :: rest =>
    rcases List.mem_append.mp h with h | h
    · obtain ⟨inner, key, type, rfl, rfl⟩ := ContentHole.exists_of_mem_failures item _ h
      exact ⟨[], rest, inner, key, type, rfl, List.append_assoc ..⟩
    · obtain ⟨before, after, inner, key, type, rfl, rfl⟩ :=
        ContentHole.exists_of_mem_allFailures rest path (position + 1) h
      refine ⟨item :: before, after, inner, key, type, rfl, ?_⟩
      rw [List.length_cons, Nat.add_right_comm, Nat.add_assoc]

end

end RecordGraph
