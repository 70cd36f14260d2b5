import RecordGraph.Execute.Fields
/-! A response as a tree of field occurrences. Each occurrence has what was resolved for it, on its own, and
an object is the list of the occurrences in it. What an occurrence contributes to the data of its object and
to the errors of the response is read off the occurrence alone. -/

namespace RecordGraph

/-- Whether a failure is one of resolving a field. -/
def Failure.isField : Failure → Bool
  | .field _ => true
  | _ => false

/-- Errors none of which is a failure of resolving a field. -/
def Fieldless (errors : List ResponseError) : Prop := ∀ e ∈ errors, e.failure.isField = false

theorem fieldless_nil : Fieldless [] := fun _ he => nomatch he

theorem fieldless_noVariable (name : String) (path : List PathSegment) :
    Fieldless [⟨.noVariable name, path⟩] := fun _ he => by
  cases List.mem_singleton.mp he
  rfl

/-- What the engine answers without a resolver: a result or none, and no failure of resolving a field. -/
structure Told where
  outcome : Outcome WireValue
  fieldless : Fieldless outcome.errors

/-- An answer without errors. -/
def Told.of (result : Option WireValue) : Told := ⟨⟨result, []⟩, fieldless_nil⟩

/-- The answer where a variable has no value. -/
def Told.unbound (name : String) : Told := ⟨.failed (.noVariable name) [], fieldless_noVariable name []⟩

mutual

/-- An occurrence of a field in an object of the response. -/
inductive Occurrence where
  /-- A field that is not asked of a resolver. -/
  | told (key : String) (answer : Told)
  /-- A field of a declared type whose resolution fails. -/
  | failed (key : String) (type : TypeRef) (error : FieldError)
  /-- A field that is resolved. -/
  | resolved (key : String) (content : Content)

/-- What a value comes to in the response. -/
inductive Content where
  | value (value : WireValue)
  /-- The value does not fit its type. -/
  | misfit (cause : Misfit)
  | object (occurrences : List Occurrence)
  /-- Items, up to the first one that is given up. -/
  | list (items : List Content)

end

/-! Data. -/

mutual

/-- What an occurrence contributes to its object. A field that fails is null if its type allows that. -/
def Occurrence.fields : Occurrence → List (String × WireValue)
  | .told key answer => (answer.outcome.result.map fun value => (key, value)).toList
  | .failed key type _ => if type.isNonNull then [] else [(key, .null)]
  | .resolved key content => (content.data.map fun value => (key, value)).toList

/-- What occurrences contribute to their object, in order. -/
def Occurrence.allFields : List Occurrence → List (String × WireValue)
  | [] => []
  | o :: rest => o.fields ++ Occurrence.allFields rest

/-- The data of a value, unless it is given up. -/
def Content.data : Content → Option WireValue
  | .value value => some value
  | .misfit _ => none
  | .object occurrences => some (Execution.object (Occurrence.allFields occurrences))
  | .list items => (Content.allData items).map .list

/-- The data of items, unless one of them is given up. -/
def Content.allData : List Content → Option (List WireValue)
  | [] => some []
  | item :: rest => item.data.bind fun value => (Content.allData rest).map (value :: ·)

end

/-! Whether a value is given up is a matter of its misfits alone. No occurrence in it is asked. -/

mutual

/-- Whether a value fits its type, and the items of a list theirs. -/
def Content.fits : Content → Bool
  | .value _ | .object _ => true
  | .misfit _ => false
  | .list items => Content.allFit items

def Content.allFit : List Content → Bool
  | [] => true
  | item :: rest => item.fits && Content.allFit rest

end

mutual

theorem Content.isSome_data (c : Content) : c.data.isSome = c.fits := by
  cases c with
  | value value => rfl
  | misfit cause => rfl
  | object occurrences => rfl
  | list items => rw [Content.data, Content.fits, Option.isSome_map, Content.isSome_allData items]

theorem Content.isSome_allData (items : List Content) :
    (Content.allData items).isSome = Content.allFit items := by
  cases items with
  | nil => rfl
  | cons item rest =>
    rw [Content.allData, Content.allFit, ← item.isSome_data, ← Content.isSome_allData rest]
    cases item.data with
    | none => rfl
    | some value => exact Option.isSome_map

end

/-! Errors. -/

mutual

/-- The errors of an occurrence in the object at a place. One that fails has exactly one. -/
def Occurrence.errors : Occurrence → List PathSegment → List ResponseError
  | .told _ answer, _ => answer.outcome.errors
  | .failed key _ error, path => [⟨.field error, path ++ [.key key]⟩]
  | .resolved key content, path => content.errors (path ++ [.key key])

def Occurrence.allErrors : List Occurrence → List PathSegment → List ResponseError
  | [], _ => []
  | o :: rest, path => o.errors path ++ Occurrence.allErrors rest path

/-- The errors of a value at a place. -/
def Content.errors : Content → List PathSegment → List ResponseError
  | .value _, _ => []
  | .misfit cause, path => [⟨.misfit cause, path⟩]
  | .object occurrences, path => Occurrence.allErrors occurrences path
  | .list items, path => Content.allErrors items path 0

/-- The errors of the items of the list at a place, from a position on. -/
def Content.allErrors : List Content → List PathSegment → Nat → List ResponseError
  | [], _, _ => []
  | item :: rest, path, position =>
    item.errors (path ++ [.index position]) ++ Content.allErrors rest path (position + 1)

end

/-! Failures. -/

mutual

/-- The failed occurrences in an occurrence, each with the path that leads to it in the response. -/
def Occurrence.failures : Occurrence → List PathSegment → List (FieldError × List PathSegment)
  | .told _ _, _ => []
  | .failed key _ error, path => [(error, path ++ [.key key])]
  | .resolved key content, path => content.failures (path ++ [.key key])

def Occurrence.allFailures : List Occurrence → List PathSegment → List (FieldError × List PathSegment)
  | [], _ => []
  | o :: rest, path => o.failures path ++ Occurrence.allFailures rest path

def Content.failures : Content → List PathSegment → List (FieldError × List PathSegment)
  | .value _, _ | .misfit _, _ => []
  | .object occurrences, path => Occurrence.allFailures occurrences path
  | .list items, path => Content.allFailures items path 0

def Content.allFailures : List Content → List PathSegment → Nat → List (FieldError × List PathSegment)
  | [], _, _ => []
  | item :: rest, path, position =>
    item.failures (path ++ [.index position]) ++ Content.allFailures rest path (position + 1)

end

/-- The response with the contributions of the occurrences in its root. -/
def Response.ofOccurrences (occurrences : List Occurrence) : Response :=
  ⟨Execution.object (Occurrence.allFields occurrences), Occurrence.allErrors occurrences []⟩

namespace Occurrence

@[simp] theorem allFields_append (os rest : List Occurrence) :
    allFields (os ++ rest) = allFields os ++ allFields rest := by
  induction os with
  | nil => rfl
  | cons o os ih => simp only [List.cons_append, allFields, ih, List.append_assoc]

@[simp] theorem allErrors_append (os rest : List Occurrence) (path : List PathSegment) :
    allErrors (os ++ rest) path = allErrors os path ++ allErrors rest path := by
  induction os with
  | nil => rfl
  | cons o os ih => simp only [List.cons_append, allErrors, ih, List.append_assoc]

end Occurrence

namespace Content

theorem allErrors_append (items rest : List Content) (path : List PathSegment) (position : Nat) :
    allErrors (items ++ rest) path position =
      allErrors items path position ++ allErrors rest path (position + items.length) := by
  induction items generalizing position with
  | nil => rfl
  | cons item items ih =>
    have hnext : position + 1 + items.length = position + (items.length + 1) := by omega
    simp only [List.cons_append, allErrors, ih, List.append_assoc, List.length_cons, hnext]

theorem allData_append (items rest : List Content) : allData (items ++ rest) =
    (allData items).bind fun values => (allData rest).map (values ++ ·) := by
  induction items with
  | nil => simp [allData]
  | cons item items ih =>
    simp only [List.cons_append, allData, ih]
    cases item.data <;> cases allData items <;> simp [Function.comp_def]

end Content

/-! The failures of resolving fields among the errors are the failed occurrences, one for one. -/

/-- The error of a failed occurrence. -/
def ResponseError.ofFailure (failure : FieldError × List PathSegment) : ResponseError :=
  ⟨.field failure.1, failure.2⟩

/-- The errors that are failures of resolving fields. -/
def fieldErrors (errors : List ResponseError) : List ResponseError :=
  errors.filter fun e => e.failure.isField

theorem fieldErrors_append (errors rest : List ResponseError) :
    fieldErrors (errors ++ rest) = fieldErrors errors ++ fieldErrors rest := List.filter_append ..

mutual

theorem Occurrence.fieldErrors_errors (o : Occurrence) (path : List PathSegment) :
    fieldErrors (o.errors path) = (o.failures path).map .ofFailure := by
  cases o with
  | told key answer =>
    refine List.filter_eq_nil_iff.mpr fun e he => ?_
    simp [answer.fieldless e he]
  | failed key type error => rfl
  | resolved key content => exact content.fieldErrors_errors (path ++ [.key key])

theorem Occurrence.fieldErrors_allErrors (os : List Occurrence) (path : List PathSegment) :
    fieldErrors (Occurrence.allErrors os path) = (Occurrence.allFailures os path).map .ofFailure := by
  cases os with
  | nil => rfl
  | cons o rest =>
    rw [Occurrence.allErrors, Occurrence.allFailures, fieldErrors_append, List.map_append,
      o.fieldErrors_errors path, Occurrence.fieldErrors_allErrors rest path]

theorem Content.fieldErrors_errors (c : Content) (path : List PathSegment) :
    fieldErrors (c.errors path) = (c.failures path).map .ofFailure := by
  cases c with
  | value value => rfl
  | misfit cause => rfl
  | object occurrences => exact Occurrence.fieldErrors_allErrors occurrences path
  | list items => exact Content.fieldErrors_allErrors items path 0

theorem Content.fieldErrors_allErrors (items : List Content) (path : List PathSegment) (position : Nat) :
    fieldErrors (Content.allErrors items path position) =
      (Content.allFailures items path position).map .ofFailure := by
  cases items with
  | nil => rfl
  | cons item rest =>
    rw [Content.allErrors, Content.allFailures, fieldErrors_append, List.map_append,
      item.fieldErrors_errors, Content.fieldErrors_allErrors rest path (position + 1)]

end

end RecordGraph
