import RecordGraph.Proofs.Build.Builders
/-! More steps for the walk. The walk is given a number of steps, and one that runs out of them fails with
an error of its own. Given more steps, it has the same outcome wherever it did not run out. -/

namespace RecordGraph

namespace Build

variable {α β : Type} {x y : Build α} {f g : α → Build β} {d d' : Draft}

/-- The step does not run out of the steps that its walk is given. -/
def Ends (x : Build α) (d : Draft) : Prop := (x.outcome d).1 ≠ .error .outOfSteps

/-- Wherever the first step ends, the second has the same outcome. -/
def Le (x y : Build α) : Prop := ∀ d, x.Ends d → y.outcome d = x.outcome d

/-! More steps. -/

theorem Le.refl (x : Build α) : x.Le x := fun _ _ => rfl

theorem Le.trans {z : Build α} (h1 : x.Le y) (h2 : y.Le z) : x.Le z := by
  intro d hx
  have hy := h1 d hx
  rw [h2 d (by rwa [Ends, hy]), hy]

theorem Le.ends (h : x.Le y) (hx : x.Ends d) : y.Ends d := by
  rwa [Ends, h d hx]

/-- Steps in a row end if the first does and, when it gives a value, the second. -/
theorem ends_bind : (x >>= f).Ends d ↔ x.Ends d ∧ ∀ a d', x.Gives d a d' → (f a).Ends d' := by
  unfold Ends Gives
  rw [outcome_bind]
  cases x.outcome d with
  | mk r d' => cases r <;> simp

theorem le_bind (hx : x.Le y) (hf : ∀ a, (f a).Le (g a)) : (x >>= f).Le (y >>= g) := by
  intro d h
  obtain ⟨hxd, hfd⟩ := ends_bind.mp h
  rw [outcome_bind, outcome_bind, hx d hxd]
  cases ho : x.outcome d with
  | mk r d' =>
    cases r with
    | ok a => exact hf a d' (hfd a d' ho)
    | error e => rfl

theorem le_mapM {x y : α → Build β} (h : ∀ a, (x a).Le (y a)) (as : List α) :
    (as.mapM x).Le (as.mapM y) := by
  induction as with
  | nil => exact .refl _
  | cons a as ih =>
    rw [List.mapM_cons, List.mapM_cons]
    exact le_bind (h a) fun b => le_bind ih fun bs => .refl _

theorem le_forM {x y : α → Build Unit} (h : ∀ a, (x a).Le (y a)) (as : List α) :
    (as.forM x).Le (as.forM y) := by
  induction as with
  | nil => exact .refl _
  | cons a as ih => exact le_bind (h a) fun _ => ih

theorem le_foldlM {x y : β → α → Build β} (h : ∀ b a, (x b a).Le (y b a)) (as : List α) (b : β) :
    (as.foldlM x b).Le (as.foldlM y b) := by
  induction as generalizing b with
  | nil => exact .refl _
  | cons a as ih =>
    rw [List.foldlM_cons, List.foldlM_cons]
    exact le_bind (h b a) fun b => ih b

theorem le_discard (h : x.Le y) : (discard x).Le (discard y) := by
  change Le ((fun _ => ()) <$> x) ((fun _ => ()) <$> y)
  rw [map_eq_pure_bind, map_eq_pure_bind]
  exact le_bind h fun _ => .refl _

theorem le_guard {c : Prop} [Decidable c] {e : ModelError} (h : x.Le y) :
    (if c then (throw e : Build Unit) >>= fun _ => x else x).Le
      (if c then (throw e : Build Unit) >>= fun _ => y else y) := by
  split
  · exact .refl _
  · exact h

/-- A look at a name leaves two steps with the same to go on. -/
theorem le_type? {name : String} {f g : Option WireType → Build α} (h : ∀ found, (f found).Le (g found)) :
    (type? name >>= f).Le (type? name >>= g) := le_bind (.refl _) h

end Build

/-- Wherever the first walk ends, the second does the same. -/
structure Walker.Le (w w' : Walker) : Prop where
  output : ∀ t, (w.output t).Le (w'.output t)
  input : ∀ t, (w.input t).Le (w'.input t)

namespace Build

variable {s : Setting} {w w' : Walker}

theorem le_argument (h : w.Le w') (field : String) (a : Argument) :
    (argument s w field a).Le (argument s w' field a) := by
  have hbody : (do let type ← w.input a.type
                   let default ← defaultValue a.name a.default
                   return { name := s.wireName a.name, hostName := a.name, description := a.description,
                            type := if a.required then type.required else type,
                            default := default } : Build WireArgument).Le
      (do let type ← w'.input a.type
          let default ← defaultValue a.name a.default
          return { name := s.wireName a.name, hostName := a.name, description := a.description,
                   type := if a.required then type.required else type, default := default }) :=
    le_bind (h.input _) fun _ => .refl _
  unfold argument
  cases a.isInput with
  | true => exact hbody
  | false =>
    cases recordName? s a.type with
    | none => exact hbody
    | some type => exact le_bind (.refl _) fun _ => hbody

theorem le_outputField (h : w.Le w') (f : Field) : (outputField s w f).Le (outputField s w' f) :=
  le_bind (h.output _) fun _ => le_bind (le_mapM (le_argument h f.name) _) fun _ => .refl _

theorem le_outputFields (h : w.Le w') (type : String) (fields : List Field) :
    (outputFields s w type fields).Le (outputFields s w' type fields) := by
  refine le_foldlM (fun acc f => ?_) _ _
  exact le_bind (le_outputField h f) fun _ => .refl _

theorem le_inputFields (h : w.Le w') (type : String) (fields : List Field) :
    (inputFields s w type fields).Le (inputFields s w' type fields) := by
  refine le_foldlM (fun acc f => ?_) _ _
  exact le_bind (h.input _) fun _ => .refl _

theorem le_interface (h : w.Le w') (r : Record) : (interface s w r).Le (interface s w' r) := by
  refine le_type? fun found => ?_
  rcases found with _ | t
  · exact le_bind (.refl _) fun _ => le_bind (le_outputFields h _ _) fun _ => .refl _
  · cases t <;> exact .refl _

theorem le_ensureInterface (h : w.Le w') (name : String) :
    (ensureInterface s w name).Le (ensureInterface s w' name) := by
  refine le_type? fun found => ?_
  rcases found with _ | t
  · by_cases hm : isMarker name = true
    · simp only [hm, if_true]
      exact .refl _
    · simp only [hm]
      cases s.interface? name with
      | none => exact .refl _
      | some r => exact le_discard (le_interface h r)
  · cases t <;> exact .refl _

theorem le_objectNamed (h : w.Le w') (name : String) (interfaces : List String) (r : Record) :
    (objectNamed s w name interfaces r).Le (objectNamed s w' name interfaces r) := by
  refine le_type? fun found => ?_
  rcases found with _ | t
  · refine le_bind (.refl _) fun _ => le_bind (le_outputFields h _ _) fun fields => le_guard ?_
    exact le_bind (le_forM (le_ensureInterface h) interfaces) fun _ => .refl _
  · cases t <;> exact .refl _

theorem le_inputObject (h : w.Le w') (r : Record) : (inputObject s w r).Le (inputObject s w' r) := by
  refine le_type? fun found => ?_
  rcases found with _ | t
  · exact le_bind (.refl _) fun _ => le_bind (le_inputFields h _ _) fun _ => .refl _
  · cases t <;> exact .refl _

theorem le_connection (h : w.Le w') (kind : String) (element : HostType) :
    (connection s w kind element).Le (connection s w' kind element) := by
  unfold connection
  cases elementRecord? s element with
  | none => exact .refl _
  | some r =>
    refine le_type? fun found => ?_
    rcases found with _ | t
    · refine le_guard (le_bind (.refl _) fun _ => le_bind (.refl _) fun _ => le_bind (.refl _) fun _ => ?_)
      refine le_bind (le_objectNamed h _ _ r) fun _ => le_bind (.refl _) fun _ => le_bind (.refl _) fun _ => ?_
      exact le_bind (le_outputFields h _ _) fun _ => .refl _
    · cases t <;> exact .refl _

theorem le_namedOutput (h : w.Le w') (name : String) :
    (namedOutput s w name).Le (namedOutput s w' name) := by
  refine le_type? fun found => ?_
  rcases found with _ | t
  · cases s.interface? name with
    | some r => exact le_interface h r
    | none =>
      cases s.record? name with
      | some r => exact le_objectNamed h _ _ r
      | none => exact .refl _
  · cases t <;> exact .refl _

theorem le_namedInput (h : w.Le w') (name : String) : (namedInput s w name).Le (namedInput s w' name) := by
  refine le_type? fun found => ?_
  cases (s.record? name).or (s.interface? name) with
  | none => exact .refl _
  | some r =>
    rcases found with _ | t
    · exact le_inputObject h r
    · cases t with
      | object t => exact le_inputObject h r
      | interface t => exact le_inputObject h r
      | _ => exact .refl _

end Build

namespace Walker

variable {s : Setting} {w w' : Walker} {steps more : Nat}

theorem le_step (h : w.Le w') : (step s w).Le (step s w') where
  output t := by
    cases t with
    | list element => exact Build.le_bind (h.output element) fun _ => .refl _
    | optional inner => exact h.output inner
    | record key =>
      simp only [step]
      cases Entries.get? s.catalogue.records key with
      | none => exact .refl _
      | some r => exact Build.le_objectNamed h _ _ r
    | connection kind element => exact Build.le_connection h kind element
    | named name => exact Build.le_namedOutput h name
    | _ => exact .refl _
  input t := by
    cases t with
    | list element => exact Build.le_bind (h.input element) fun _ => .refl _
    | optional inner => exact h.input inner
    | record key =>
      simp only [step]
      cases Entries.get? s.catalogue.records key with
      | none => exact .refl _
      | some r => exact Build.le_inputObject h r
    | named name => exact Build.le_namedInput h name
    | _ => exact .refl _

theorem Le.trans {w'' : Walker} (h1 : w.Le w') (h2 : w'.Le w'') : w.Le w'' :=
  ⟨fun t => (h1.output t).trans (h2.output t), fun t => (h1.input t).trans (h2.input t)⟩

theorem le_within_succ (s : Setting) (steps : Nat) : (within s steps).Le (within s (steps + 1)) := by
  induction steps with
  | zero => exact ⟨fun _ _ h => absurd rfl h, fun _ _ h => absurd rfl h⟩
  | succ steps ih => exact le_step ih

/-- More steps change no outcome but that of running out of them. -/
theorem le_within (h : steps ≤ more) : (within s steps).Le (within s more) := by
  induction h with
  | refl => exact ⟨fun _ => .refl _, fun _ => .refl _⟩
  | step _ ih => exact ih.trans (le_within_succ s _)

end Walker

end RecordGraph
