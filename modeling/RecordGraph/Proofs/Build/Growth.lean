import RecordGraph.Proofs.Build.Builders
/-! A build only grows its draft. Whatever a builder does, and whether or not it fails, the types that
were registered before keep their place and their contents, and the extra fields noted for a
registered connection type stay as they are: a builder completes only the type that it has itself
registered. Input types are the only types that the walk may not find under the name of a reference by
name, and their names are their own: they all end alike. -/

namespace RecordGraph

/-- Input types are registered under names that end in `Input`. -/
def WireType.NamedByKind : WireType → Prop
  | .inputObject t => ∃ base, t.name = base ++ "Input"
  | _ => True

namespace Draft

/-- Everything that the first draft holds stands unchanged in the second. -/
structure Grows (d d' : Draft) : Prop where
  names : d.types.names <+: d'.types.names
  types : ∀ {name t}, d.types.get? name = some t → d'.types.get? name = some t
  notes : ∀ {name}, d.types.get? name ≠ none →
    Entries.get? d'.connectionFields name = Entries.get? d.connectionFields name
  distinct : d.types.names.Nodup → d'.types.names.Nodup
  inputs : ∀ {name t}, d'.types.get? name = some (.inputObject t) →
    (∃ t', d.types.get? name = some (.inputObject t')) ∨ ∃ base, name = base ++ "Input"

variable {d d' : Draft}

theorem Grows.refl (d : Draft) : d.Grows d := ⟨List.prefix_rfl, id, fun _ => rfl, id, fun h => .inl ⟨_, h⟩⟩

theorem Grows.trans {d₁ d₂ d₃ : Draft} (h1 : d₁.Grows d₂) (h2 : d₂.Grows d₃) : d₁.Grows d₃ where
  names := h1.names.trans h2.names
  types h := h2.types (h1.types h)
  notes h := by
    obtain ⟨t, ht⟩ := Option.ne_none_iff_exists'.mp h
    rw [h2.notes (by simp [h1.types ht]), h1.notes h]
  distinct h := h2.distinct (h1.distinct h)
  inputs h := by
    rcases h2.inputs h with ⟨t, ht⟩ | hb
    · exact h1.inputs ht
    · exact .inr hb

theorem grows_add (d : Draft) {t : WireType} (ht : t.NamedByKind) : d.Grows (d.add t) where
  names := Registry.names_prefix_add
  types := get?_add_of_some
  notes _ := rfl
  distinct := Registry.nodup_names_add
  inputs {name u} hu := by
    by_cases hn : d.types.get? t.name = none
    · by_cases hne : t.name = name
      · subst hne
        rw [get?_add_self hn] at hu
        cases hu
        exact .inr ht
      · rw [get?_add_of_ne hne] at hu
        exact .inl ⟨u, hu⟩
    · rw [add, Registry.add_of_mem hn] at hu
      exact .inl ⟨u, hu⟩

theorem Grows.noteConnection {name : String} {extra : List String} (h : d.Grows d')
    (hn : d.types.get? name = none) : d.Grows (d'.noteConnection name extra) where
  names := h.names
  types := h.types
  notes {other} ho := by
    rw [Draft.noteConnection, Entries.get?_insert, if_neg, h.notes ho]
    rintro rfl; exact ho hn
  distinct := h.distinct
  inputs := h.inputs

/-- Completing a type that was registered since leaves what was there before. -/
theorem Grows.replace {t : WireType} (h : d.Grows d') (hn : d.types.get? t.name = none) :
    d.Grows (d'.replace t) where
  names := by rw [names_replace]; exact h.names
  types {name u} hu := by
    have hne : t.name ≠ name := by rintro rfl; simp [hn] at hu
    rw [get?_replace_of_ne hne, h.types hu]
  notes hd := by rw [connectionFields_replace]; exact h.notes hd
  distinct hd := by rw [names_replace]; exact h.distinct hd
  inputs {name u} hu := by
    have hk := kind_replace (d := d') (t := t) name
    rw [hu, Option.map_some, eq_comm, Option.map_eq_some_iff] at hk
    obtain ⟨v, hv, hvk⟩ := hk
    cases v with
    | inputObject v => exact h.inputs hv
    | _ => simp [WireType.kind] at hvk

end Draft

namespace Build

variable {α β : Type} {s : Setting} {w : Walker} {d d₀ : Draft}

/-- A step that only grows the draft, whether or not it fails. -/
def Grows (x : Build α) : Prop := ∀ d : Draft, d.Grows (x.after d)

theorem Grows.of_gives {x : Build α} {a : α} {d' : Draft} (hx : x.Grows) (h : x.Gives d a d') :
    d.Grows d' := h.after_eq ▸ hx d

theorem after_bind (x : Build α) (f : α → Build β) (d : Draft) : (x >>= f).after d =
    match x.outcome d with
    | (.ok a, d') => (f a).after d'
    | (.error _, d') => d' := by
  rw [after, outcome_bind]
  cases x.outcome d with
  | mk r d' => cases r <;> rfl

/-- Steps in a row grow the draft that the first of them was given by then. -/
theorem grows_chain {x : Build α} {f : α → Build β} (h : d₀.Grows d) (hx : x.Grows)
    (hf : ∀ a d', d₀.Grows d' → d₀.Grows ((f a).after d')) : d₀.Grows ((x >>= f).after d) := by
  have hd := hx d
  rw [after_bind]
  rw [after] at hd
  cases ho : x.outcome d with
  | mk r d' =>
    rw [ho] at hd
    cases r with
    | ok a => exact hf a d' (h.trans hd)
    | error e => exact h.trans hd

theorem grows_bind {x : Build α} {f : α → Build β} (hx : x.Grows) (hf : ∀ a, (f a).Grows) :
    (x >>= f).Grows :=
  fun d => grows_chain (.refl d) hx fun a d' h => h.trans (hf a d')

theorem grows_pure (a : α) : (pure a : Build α).Grows := Draft.Grows.refl

theorem grows_throw (e : ModelError) : (throw e : Build α).Grows := Draft.Grows.refl

theorem grows_get : (get : Build Draft).Grows := Draft.Grows.refl

theorem grows_type? (name : String) : (type? name).Grows := Draft.Grows.refl

theorem grows_add {t : WireType} (ht : t.NamedByKind) : (add t).Grows := fun d => d.grows_add ht

theorem grows_guard {c : Prop} [Decidable c] {e : ModelError} {x : Build α} (hx : x.Grows) :
    (if c then (throw e : Build Unit) >>= fun _ => x else x).Grows := by
  split
  · exact grows_bind (grows_throw e) fun _ => hx
  · exact hx

/-- A look at a name tells the rest of a step what is registered there. -/
theorem after_type? (name : String) (f : Option WireType → Build α) (d : Draft) :
    (type? name >>= f).after d = (f (d.types.get? name)).after d := rfl

theorem after_modify (g : Draft → Draft) (f : Unit → Build α) (d : Draft) :
    ((modify g : Build Unit) >>= f).after d = (f ()).after (g d) := rfl

theorem grows_mapM {x : α → Build β} (hx : ∀ a, (x a).Grows) (as : List α) : (as.mapM x).Grows := by
  induction as with
  | nil => rw [List.mapM_nil]; exact grows_pure _
  | cons a as ih =>
    rw [List.mapM_cons]
    exact grows_bind (hx a) fun _ => grows_bind ih fun _ => grows_pure _

theorem grows_forM {x : α → Build Unit} {as : List α} (hx : ∀ a ∈ as, (x a).Grows) :
    (as.forM x).Grows := by
  induction as with
  | nil => exact grows_pure ()
  | cons a as ih =>
    rw [List.forall_mem_cons] at hx
    exact grows_bind hx.1 fun _ => ih hx.2

theorem grows_foldlM {add : β → α → Build β} (hadd : ∀ b a, (add b a).Grows) (as : List α) (b : β) :
    (as.foldlM add b).Grows := by
  induction as generalizing b with
  | nil => exact grows_pure b
  | cons a as ih => rw [List.foldlM_cons]; exact grows_bind (hadd b a) ih

/-! Leaves. -/

theorem grows_addUnlessPresent {t : WireType} (ht : t.NamedByKind) : (addUnlessPresent t).Grows := by
  refine grows_bind (grows_type? _) fun found => ?_
  split
  · split
    · exact grows_pure ()
    · exact grows_throw _
  · exact grows_add ht

theorem grows_scalar (s : Setting) (hostName : String) : (scalar s hostName).Grows := by
  unfold scalar
  split
  · exact grows_throw _
  · refine grows_bind (grows_type? _) fun found => ?_
    split
    · exact grows_pure _
    · exact grows_throw _
    · exact grows_bind (grows_add trivial) fun _ => grows_pure _

theorem grows_enum (e : EnumType) : (enum e).Grows := by
  refine grows_bind (grows_type? _) fun found => ?_
  split
  · exact grows_pure _
  · exact grows_throw _
  · exact grows_guard (grows_bind (grows_add trivial) fun _ => grows_pure _)

theorem grows_defaultValue (name : String) (v : Option Value) : (defaultValue name v).Grows := by
  unfold defaultValue
  split
  · exact grows_pure _
  · split
    · exact grows_pure _
    · exact grows_throw _

theorem namedByKind_markerTypes {id string boolean : TypeRef} :
    ∀ t ∈ markerTypes s id string boolean, t.NamedByKind := by
  intro t ht
  simp only [markerTypes, List.mem_cons, List.not_mem_nil, or_false] at ht
  rcases ht with rfl | rfl | rfl | rfl <;> exact trivial

theorem grows_markers (s : Setting) : (markers s).Grows := by
  refine grows_bind (grows_type? _) fun found => ?_
  split
  · exact grows_pure ()
  · exact grows_bind (grows_scalar s _) fun _ => grows_bind (grows_scalar s _) fun _ =>
      grows_bind (grows_scalar s _) fun _ =>
        grows_forM fun t ht => grows_addUnlessPresent (namedByKind_markerTypes t ht)

end Build

/-- A walk that only grows the draft. -/
structure Walker.Grows (w : Walker) : Prop where
  output : ∀ t, (w.output t).Grows
  input : ∀ t, (w.input t).Grows

namespace Build

variable {α : Type} {s : Setting} {w : Walker} {d d₀ : Draft}

/-! Builders that use a walk for the types below them. -/

theorem grows_argument (hw : w.Grows) (field : String) (a : Argument) : (argument s w field a).Grows := by
  have hbody : (do let type ← w.input a.type
                   let default ← defaultValue a.name a.default
                   return { name := s.wireName a.name, hostName := a.name, description := a.description,
                            type := if a.required then type.required else type,
                            default := default } : Build WireArgument).Grows :=
    grows_bind (hw.input _) fun _ => grows_bind (grows_defaultValue _ _) fun _ => grows_pure _
  unfold argument
  cases a.isInput with
  | true => exact hbody
  | false =>
    cases recordName? s a.type with
    | none => exact hbody
    | some type => exact grows_bind (grows_throw _) fun _ => hbody

theorem grows_addPagingArgument (arguments : List WireArgument) (p : String × String × String) :
    (addPagingArgument s arguments p).Grows := by
  obtain ⟨name, host, text⟩ := p
  unfold addPagingArgument
  simp only
  split
  · exact grows_pure _
  · exact grows_bind (grows_scalar s _) fun _ => grows_pure _

theorem grows_outputField (hw : w.Grows) (f : Field) : (outputField s w f).Grows := by
  refine grows_bind (hw.output _) fun type => grows_bind (grows_mapM (grows_argument hw _) _) fun args => ?_
  cases f.type.stripOptional with
  | connection kind element =>
    exact grows_bind (grows_foldlM grows_addPagingArgument _ _) fun _ => grows_pure _
  | _ => exact grows_pure _

theorem grows_outputFields (hw : w.Grows) (type : String) (fields : List Field) :
    (outputFields s w type fields).Grows :=
  grows_foldlM (fun _ f => grows_bind (grows_outputField hw f) fun _ => grows_guard (grows_pure _)) _ _

theorem grows_inputFields (hw : w.Grows) (type : String) (fields : List Field) :
    (inputFields s w type fields).Grows :=
  grows_foldlM (fun _ _ => grows_bind (hw.input _) fun _ =>
    grows_guard (grows_bind (grows_defaultValue _ _) fun _ => grows_pure _)) _ _

/-- A step that completes a type that was free at the start. -/
theorem grows_complete {t : WireType} {ref : TypeRef} (h : d₀.Grows d) (hn : d₀.types.get? t.name = none) :
    d₀.Grows ((replace t >>= fun _ => (pure ref : Build TypeRef)).after d) := h.replace hn

theorem grows_after_guard {c : Prop} [Decidable c] {e : ModelError} {x : Build α} (h : d₀.Grows d)
    (hx : d₀.Grows (x.after d)) :
    d₀.Grows ((if c then (throw e : Build Unit) >>= fun _ => x else x).after d) := by
  split
  · exact h
  · exact hx

theorem grows_interface (hw : w.Grows) (r : Record) : (interface s w r).Grows := by
  intro d
  unfold interface
  rw [after_type?]
  split
  · exact .refl d
  · exact .refl d
  · rename_i hn
    refine grows_chain (.refl d) (grows_add trivial) fun _ d1 h1 => ?_
    refine grows_chain h1 (grows_outputFields hw _ _) fun fields d2 h2 => ?_
    exact grows_after_guard h2 (grows_complete h2 hn)

theorem grows_ensureInterface (hw : w.Grows) (name : String) : (ensureInterface s w name).Grows := by
  refine grows_bind (grows_type? _) fun found => ?_
  split
  · exact grows_pure ()
  · exact grows_throw _
  · split
    · exact grows_markers s
    · split
      · rename_i r _
        change ((fun _ => ()) <$> interface s w r : Build Unit).Grows
        rw [map_eq_pure_bind]
        exact grows_bind (grows_interface hw r) fun _ => grows_pure ()
      · exact grows_throw _

theorem grows_objectNamed (hw : w.Grows) (name : String) (interfaces : List String) (r : Record) :
    (objectNamed s w name interfaces r).Grows := by
  intro d
  unfold objectNamed
  rw [after_type?]
  split
  · exact .refl d
  · exact .refl d
  · rename_i hn
    refine grows_chain (.refl d) (grows_add trivial) fun _ d1 h1 => ?_
    refine grows_chain h1 (grows_outputFields hw _ _) fun fields d2 h2 => grows_after_guard h2 ?_
    refine grows_chain h2 (grows_forM fun i _ => grows_ensureInterface hw i) fun _ d3 h3 => ?_
    exact grows_complete h3 hn

theorem grows_inputObject (hw : w.Grows) (r : Record) : (inputObject s w r).Grows := by
  intro d
  unfold inputObject
  simp only [after_type?]
  split
  · exact .refl d
  · exact .refl d
  · rename_i hn
    refine grows_chain (.refl d) (grows_add ⟨r.name, rfl⟩) fun _ d1 h1 => ?_
    refine grows_chain h1 (grows_inputFields hw _ _) fun fields d2 h2 => ?_
    exact grows_after_guard h2 (grows_complete h2 hn)

theorem grows_connection (hw : w.Grows) (kind : String) (element : HostType) :
    (connection s w kind element).Grows := by
  intro d
  unfold connection
  split
  · exact .refl d
  · rename_i r _
    simp only [after_type?]
    split
    · refine grows_chain (.refl d) grows_get fun e d1 h1 => ?_
      split
      · split
        · exact h1
        · exact h1
      · exact h1
    · exact .refl d
    · rename_i hn
      apply grows_after_guard (.refl d)
      refine grows_chain (.refl d) (grows_markers s) fun _ d1 h1 => ?_
      have h2 : d.Grows (d1.noteConnection (r.name ++ "Connection") (extraNames s kind)) :=
        h1.noteConnection hn
      rw [after_modify]
      refine grows_chain h2 (grows_add trivial) fun _ d3 h3 => ?_
      refine grows_chain h3 (grows_objectNamed hw _ _ _) fun _ d4 h4 => ?_
      refine grows_chain h4 (grows_scalar s _) fun _ d5 h5 => ?_
      refine grows_chain h5 (grows_addUnlessPresent trivial) fun _ d6 h6 => ?_
      exact grows_chain h6 (grows_outputFields hw _ _) fun _ d7 h7 => grows_complete h7 hn

theorem grows_namedOutput (hw : w.Grows) (name : String) : (namedOutput s w name).Grows := by
  refine grows_bind (grows_type? _) fun found => ?_
  split
  · exact grows_throw _
  · exact grows_pure _
  · split
    · exact grows_interface hw _
    · exact grows_objectNamed hw _ _ _
    · split
      · exact grows_bind (grows_markers s) fun _ => grows_pure _
      · exact grows_throw _

theorem grows_namedInput (hw : w.Grows) (name : String) : (namedInput s w name).Grows := by
  refine grows_bind (grows_type? _) fun found => ?_
  split
  any_goals exact grows_pure _
  split
  · exact grows_inputObject hw _
  · exact grows_throw _

end Build

namespace Walker

variable {s : Setting} {w : Walker}

theorem grows_step (hw : w.Grows) : (step s w).Grows where
  output t := by
    cases t with
    | scalar hostName => exact Build.grows_scalar s hostName
    | enum key =>
      simp only [step]
      split
      · exact Build.grows_enum _
      · exact Build.grows_throw _
    | list element => exact Build.grows_bind (hw.output element) fun _ => Build.grows_pure _
    | optional inner => exact hw.output inner
    | record key =>
      simp only [step]
      split
      · exact Build.grows_objectNamed hw _ _ _
      · exact Build.grows_throw _
    | connection kind element => exact Build.grows_connection hw kind element
    | named name => exact Build.grows_namedOutput hw name
  input t := by
    cases t with
    | scalar hostName => exact Build.grows_scalar s hostName
    | enum key =>
      simp only [step]
      split
      · exact Build.grows_enum _
      · exact Build.grows_throw _
    | list element => exact Build.grows_bind (hw.input element) fun _ => Build.grows_pure _
    | optional inner => exact hw.input inner
    | record key =>
      simp only [step]
      split
      · exact Build.grows_inputObject hw _
      · exact Build.grows_throw _
    | connection kind element => exact Build.grows_throw _
    | named name => exact Build.grows_namedInput hw name

/-- The walk grows the draft, however many steps it is given. -/
theorem grows_within (s : Setting) (steps : Nat) : (within s steps).Grows := by
  induction steps with
  | zero => exact ⟨fun _ => Build.grows_throw _, fun _ => Build.grows_throw _⟩
  | succ steps ih => exact grows_step ih

end Walker

/-! Runs. -/

/-- What a host may ask of a build under way. -/
inductive BuilderCall where
  | output (type : HostType)
  | input (type : HostType)
  | object (record : Record)
  | interface (record : Record)
  | inputObject (record : Record)
  | enum (type : EnumType)
  | scalar (hostName : String)
  | markers

/-- The draft that a call leaves, whether or not it fails. -/
def BuilderCall.after (s : Setting) (w : Walker) (d : Draft) : BuilderCall → Draft
  | .output type => (w.output type).after d
  | .input type => (w.input type).after d
  | .object record => (Build.object s w record).after d
  | .interface record => (Build.interface s w record).after d
  | .inputObject record => (Build.inputObject s w record).after d
  | .enum type => (Build.enum type).after d
  | .scalar hostName => (Build.scalar s hostName).after d
  | .markers => (Build.markers s).after d

theorem BuilderCall.grows_after {s : Setting} {w : Walker} (hw : w.Grows) (d : Draft) (c : BuilderCall) :
    d.Grows (c.after s w d) := by
  cases c with
  | output type => exact hw.output type d
  | input type => exact hw.input type d
  | object record => exact Build.grows_objectNamed hw _ _ record d
  | interface record => exact Build.grows_interface hw record d
  | inputObject record => exact Build.grows_inputObject hw record d
  | enum type => exact Build.grows_enum type d
  | scalar hostName => exact Build.grows_scalar s hostName d
  | markers => exact Build.grows_markers s d

namespace Draft

/-- The draft after some calls, each with the steps that its walk is given. -/
def afterCalls (s : Setting) (d : Draft) (calls : List (Nat × BuilderCall)) : Draft :=
  calls.foldl (fun d c => c.2.after s (.within s c.1) d) d

/-- A run of calls grows the draft, whichever of them fail. -/
theorem grows_afterCalls (s : Setting) (d : Draft) (calls : List (Nat × BuilderCall)) :
    d.Grows (d.afterCalls s calls) := by
  induction calls generalizing d with
  | nil => exact .refl d
  | cons c calls ih => exact (c.2.grows_after (Walker.grows_within s c.1) d).trans (ih _)

end Draft

end RecordGraph
