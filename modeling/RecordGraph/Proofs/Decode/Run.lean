import RecordGraph.Resolve.Decode
/-! Running the decoding of a value. What a decoding answers within some steps it answers within more,
so its answer does not depend on the steps. A decoding calls for others in turn, for as long as they
give values, and has an outcome exactly when all those that it comes to have one. -/

namespace RecordGraph

namespace Bounded

variable {α β γ : Type} {x y : Bounded α} {f g : α → Bounded β}

theorem run_bind (x : Bounded α) (f : α → Bounded β) : (x >>= f).run =
    match x.run with
    | some (.ok a) => (f a).run
    | some (.error e) => some (.error e)
    | none => none := by
  change (x.run.bind fun r => ExceptT.bindCont f r) = _
  cases x.run with
  | none => rfl
  | some r => cases r <;> rfl

/-- Whatever the first decoding answers, the second does. -/
def Le (x y : Bounded α) : Prop := ∀ r, x.run = some r → y.run = some r

theorem Le.refl (x : Bounded α) : x.Le x := fun _ h => h

theorem le_bind (hx : x.Le y) (hf : ∀ a, (f a).Le (g a)) : (x >>= f).Le (y >>= g) := by
  intro r h
  rw [run_bind] at h ⊢
  cases ho : x.run with
  | none =>
    rw [ho] at h
    cases h
  | some o =>
    rw [ho] at h
    rw [hx o ho]
    cases o with
    | ok a => exact hf a r h
    | error e => exact h

theorem le_mapM {x y : α → Bounded β} (h : ∀ a, (x a).Le (y a)) (as : List α) :
    (as.mapM x).Le (as.mapM y) := by
  induction as with
  | nil => exact .refl _
  | cons a as ih =>
    rw [List.mapM_cons, List.mapM_cons]
    exact le_bind (h a) fun b => le_bind ih fun bs => .refl _

/-- Two decodings in a row end if the first does and, when it gives a value, the second. -/
theorem isSome_bind : (x >>= f).run.isSome ↔
    x.run.isSome ∧ ∀ a, x.run = some (.ok a) → (f a).run.isSome := by
  rw [run_bind]
  cases ho : x.run with
  | none => simp
  | some o => cases o <;> simp

theorem isSome_pure (a : α) : (pure a : Bounded α).run.isSome := rfl

theorem isSome_throw (e : FieldError) : (throw e : Bounded α).run.isSome := rfl

theorem isSome_lift (r : Except FieldError α) : (liftM r : Bounded α).run.isSome := by
  cases r <;> rfl

/-- The decodings of a list end in turn, for as long as they give values. -/
def InTurn (x : α → Bounded β) : List α → Prop
  | [] => True
  | a :: as => (x a).run.isSome ∧ ∀ b, (x a).run = some (.ok b) → InTurn x as

theorem isSome_mapM {x : α → Bounded β} {as : List α} : (as.mapM x).run.isSome ↔ InTurn x as := by
  induction as with
  | nil => exact iff_of_true (isSome_pure _) trivial
  | cons a as ih =>
    rw [List.mapM_cons, isSome_bind, InTurn]
    refine and_congr_right fun _ => forall₂_congr fun b hb => ?_
    rw [isSome_bind, ih]
    exact and_iff_left fun bs _ => isSome_pure _

theorem inTurn_map {x : α → Bounded β} {f : γ → α} {cs : List γ} :
    InTurn x (cs.map f) ↔ InTurn (fun c => x (f c)) cs := by
  induction cs with
  | nil => exact Iff.rfl
  | cons c cs ih =>
    rw [List.map_cons, InTurn, InTurn]
    exact and_congr_right fun _ => forall₂_congr fun b hb => ih

theorem inTurn_singleton {x : α → Bounded β} {a : α} : InTurn x [a] ↔ (x a).run.isSome :=
  and_iff_left fun _ _ => trivial

end Bounded

/-- A value to be decoded by a type. -/
abbrev Decoding := TypeRef × WireValue

namespace Model

variable {m : Model} {steps more : Nat} {type : TypeRef} {value : WireValue}

/-- The values of the fields that are given or have a default. -/
def present (entries : Entries WireValue) (fields : List InputField) : List Decoding :=
  fields.filterMap fun f => ((Entries.get? entries f.name).or f.default).map fun v => (f.type, v)

/-- The decodings of the fields of an object by a named type. -/
def objectCalls (m : Model) (name : String) (entries : Entries WireValue) : List Decoding :=
  match m.type? name with
  | some (.inputObject type) => present entries type.fields
  | _ => []

/-- The decodings that a decoding calls for, in turn. -/
def callsOf (m : Model) : TypeRef → WireValue → List Decoding
  | .nonNull inner, value => [(inner, value)]
  | _, .null => []
  | .list inner, .list items => items.map fun item => (inner, item)
  | .list inner, value => [(inner, value)]
  | .named name, .object entries => m.objectCalls name entries
  | .named _, _ => []

/-- A decoding within some steps. -/
def within (m : Model) (steps : Nat) (c : Decoding) : Bounded Value := m.decodeWithin steps c.1 c.2

theorem le_decodeFields {x y : TypeRef → WireValue → Bounded Value} (h : ∀ t v, (x t v).Le (y t v))
    (entries : Entries WireValue) (decoded : List (String × Value)) (fields : List InputField) :
    (decodeFields x entries decoded fields).Le (decodeFields y entries decoded fields) := by
  induction fields generalizing decoded with
  | nil => exact .refl _
  | cons f fields ih =>
    unfold decodeFields
    split
    · exact Bounded.le_bind (h _ _) fun v => ih _
    · exact ih _

theorem le_decodeNamed {x y : TypeRef → WireValue → Bounded Value} (h : ∀ t v, (x t v).Le (y t v))
    (name : String) (value : WireValue) : (m.decodeNamed x name value).Le (m.decodeNamed y name value) := by
  unfold decodeNamed
  split
  · exact .refl _
  · exact .refl _
  · cases value with
    | object entries => exact Bounded.le_bind (le_decodeFields h _ _ _) fun fields => .refl _
    | _ => exact .refl _
  · exact .refl _
  · exact .refl _

theorem le_decodeWithin_succ (steps : Nat) (type : TypeRef) (value : WireValue) :
    (m.decodeWithin steps type value).Le (m.decodeWithin (steps + 1) type value) := by
  induction steps generalizing type value with
  | zero =>
    intro r h
    cases h
  | succ steps ih =>
    cases type with
    | nonNull inner => exact ih inner value
    | list inner =>
      cases value with
      | null => exact .refl _
      | list items => exact Bounded.le_bind (Bounded.le_mapM (fun v => ih inner v) items) fun vs => .refl _
      | _ => exact Bounded.le_bind (ih inner _) fun v => .refl _
    | named name =>
      cases value with
      | null => exact .refl _
      | _ => exact le_decodeNamed ih name _

/-- More steps change no outcome. -/
theorem le_decodeWithin (h : steps ≤ more) (type : TypeRef) (value : WireValue) :
    (m.decodeWithin steps type value).Le (m.decodeWithin more type value) := by
  induction h with
  | refl => exact .refl _
  | step _ ih => exact fun r hr => le_decodeWithin_succ _ _ _ r (ih r hr)

theorem isSome_decodeFields {x : TypeRef → WireValue → Bounded Value} {entries : Entries WireValue}
    {decoded : List (String × Value)} {fields : List InputField} :
    (decodeFields x entries decoded fields).run.isSome ↔
      Bounded.InTurn (fun c : Decoding => x c.1 c.2) (present entries fields) := by
  induction fields generalizing decoded with
  | nil => exact iff_of_true (Bounded.isSome_pure _) trivial
  | cons f fields ih =>
    unfold decodeFields present
    rw [List.filterMap_cons]
    cases (Entries.get? entries f.name).or f.default with
    | none => exact ih
    | some v =>
      rw [Bounded.isSome_bind]
      exact and_congr_right fun _ => forall₂_congr fun b hb => ih

theorem isSome_decodeNamed_object {x : TypeRef → WireValue → Bounded Value} {name : String}
    {entries : Entries WireValue} : (m.decodeNamed x name (.object entries)).run.isSome ↔
      Bounded.InTurn (fun c : Decoding => x c.1 c.2) (m.objectCalls name entries) := by
  unfold decodeNamed objectCalls
  cases m.type? name with
  | none => exact iff_of_true (Bounded.isSome_throw _) trivial
  | some t =>
    cases t with
    | inputObject t =>
      simp only [decodeObject]
      rw [Bounded.isSome_bind, isSome_decodeFields]
      exact and_iff_left fun fields _ => Bounded.isSome_lift _
    | scalar t => exact iff_of_true (Bounded.isSome_lift _) trivial
    | enum t => exact iff_of_true (Bounded.isSome_lift _) trivial
    | _ => exact iff_of_true (Bounded.isSome_throw _) trivial

/-- A value that is no object is decoded by its named type at once. -/
theorem isSome_decodeNamed_leaf {x : TypeRef → WireValue → Bounded Value} {name : String}
    (h : ∀ entries, value ≠ .object entries) : (m.decodeNamed x name value).run.isSome := by
  unfold decodeNamed
  split
  · exact Bounded.isSome_lift _
  · exact Bounded.isSome_lift _
  · unfold decodeObject
    split
    · rename_i entries
      exact absurd rfl (h entries)
    · exact Bounded.isSome_throw _
  · exact Bounded.isSome_throw _
  · exact Bounded.isSome_throw _

/-- A decoding ends with one more step if those that it calls for end in turn. -/
theorem isSome_within_succ {c : Decoding} :
    (m.within (steps + 1) c).run.isSome ↔ Bounded.InTurn (m.within steps) (m.callsOf c.1 c.2) := by
  obtain ⟨type, value⟩ := c
  have hsingle (inner : TypeRef) (v : WireValue) :
      (do return Value.list [← m.decodeWithin steps inner v] : Bounded Value).run.isSome ↔
        Bounded.InTurn (m.within steps) [(inner, v)] := by
    rw [Bounded.isSome_bind, Bounded.inTurn_singleton]
    exact and_iff_left fun a _ => Bounded.isSome_pure _
  cases type with
  | nonNull inner => exact Bounded.inTurn_singleton.symm
  | list inner =>
    cases value with
    | null => exact iff_of_true (Bounded.isSome_pure _) trivial
    | list items =>
      simp only [within, decodeWithin, callsOf]
      rw [Bounded.isSome_bind, Bounded.isSome_mapM, Bounded.inTurn_map]
      exact and_iff_left fun a _ => Bounded.isSome_pure _
    | _ => exact hsingle inner _
  | named name =>
    cases value with
    | null => exact iff_of_true (Bounded.isSome_pure _) trivial
    | object entries => exact isSome_decodeNamed_object
    | _ => exact iff_of_true (isSome_decodeNamed_leaf fun entries he => by cases he) trivial

end Model

end RecordGraph
