import RecordGraph.Proofs.Build.Fails
import RecordGraph.Proofs.Build.Tidy
/-! Mapping a host type again after it has failed. A builder that fails leaves what it has registered by then, and
the type that it was about to complete is registered first. So it depends on how far the first attempt came whether
the second one fails too: if the name of the type was free and the attempt got to register it, the second one finds
it there, takes it for the type of the host type and succeeds. Otherwise what stood in the way of the first attempt
stands in the way of the second. -/

namespace RecordGraph

namespace Build

variable {α : Type}

/-- Whether a step that has failed gives a value in the draft that it left, or fails once more and not for want of
steps. The draft stays as it is. -/
def Again (x : Build α) (d : Draft) (opened : Prop) : Prop :=
  opened ∧ (∃ a, x.Gives d a d) ∨ ¬ opened ∧ ∃ e, e ≠ .outOfSteps ∧ x.Fails d e d

/-- A name that was free is held by a type of a kind. -/
def Opened (d d' : Draft) (name : String) (kind : WireType → Bool) : Prop :=
  d.types.get? name = none ∧ d'.types.Holds kind name

end Build

namespace Setting

/-- The name under which the type of an output is registered once its builder comes to it, and the kinds of type
that are taken for it there. Scalars and enums are registered at once or not at all. -/
def outputForm? (s : Setting) : HostType → Option (String × (WireType → Bool))
  | .scalar _ | .enum _ => none
  | .list t | .optional t => s.outputForm? t
  | .record key => (Entries.get? s.catalogue.records key).map fun r => (r.name, WireType.isObject)
  | .connection _ element =>
    (Build.elementRecord? s element).map fun r => (r.name ++ "Connection", WireType.isObject)
  | .named name => some (name, WireType.isOutput)

/-- The name under which the type of an input is registered, and the kind that is taken for it there. -/
def inputForm? (s : Setting) : HostType → Option (String × (WireType → Bool))
  | .scalar _ | .enum _ | .connection _ _ => none
  | .list t | .optional t => s.inputForm? t
  | .record key =>
    (Entries.get? s.catalogue.records key).map fun r => (r.name ++ "Input", fun t => t matches .inputObject _)
  | .named name =>
    ((s.record? name).or (s.interface? name)).map fun r => (r.name ++ "Input", fun t => t matches .inputObject _)

end Setting

namespace Mapping

def form? (s : Setting) : Mapping → Option (String × (WireType → Bool))
  | .output t => s.outputForm? t
  | .input t => s.inputForm? t

/-- A mapping that failed has left the type of its host type behind, under a name that was free before. -/
def LeavesOpen (s : Setting) (d d' : Draft) (m : Mapping) : Prop :=
  ∃ form ∈ m.form? s, Build.Opened d d' form.1 form.2

end Mapping

namespace Build

variable {α β : Type} {x : Build α} {s : Setting} {w w' : Walker} {d d' : Draft} {e : ModelError} {m : Mapping}
  {r : Record} {name : String}

theorem Again.of_form {kind : WireType → Bool} (hform : m.form? s = some (name, kind))
    (hx : x.Again d' (Opened d d' name kind)) : x.Again d' (m.LeavesOpen s d d') := by
  have hopens : m.LeavesOpen s d d' ↔ Opened d d' name kind := by
    simp only [Mapping.LeavesOpen, hform, Option.mem_def, Option.some.injEq, exists_eq_left']
  rwa [hopens]

/-- What has no form leaves the draft as it is. -/
theorem Again.of_formless (hform : m.form? s = none) (he : e ≠ .outOfSteps) (hx : x.Fails d' e d') :
    x.Again d' (m.LeavesOpen s d d') := by
  refine .inr ⟨?_, e, he, hx⟩
  rintro ⟨form, hmem, -⟩
  cases hform.symm.trans hmem

/-! Builders that register a type and complete it. -/

theorem not_opened_of_some {kind : WireType → Bool} {t : WireType} (h : d.types.get? name = some t) :
    ¬ Opened d d' name kind := by
  rintro ⟨hn, -⟩
  cases h.symm.trans hn

theorem not_opened_of_none {kind : WireType → Bool} (h : d'.types.get? name = none) :
    ¬ Opened d d' name kind := by
  rintro ⟨-, t, ht, -⟩
  cases h.symm.trans ht

/-- The name was taken, by a type of another kind. -/
theorem Again.of_taken {kind : WireType → Bool} {t : WireType} (ht : d.types.get? name = some t)
    (he : e ≠ .outOfSteps) (h : x.Fails d e d) : Again x d (Opened d d name kind) :=
  .inr ⟨not_opened_of_some ht, e, he, h⟩

/-- Fields and what follows them grow the draft in which the type is registered. -/
theorem grows_of_unfinished {fields : Build α} {rest : α → Build β} (hfields : fields.Grows)
    (hrest : ∀ a d₁, (rest a).Fails d₁ e d' → d₁.Grows d') (h : (fields >>= rest).Fails d e d') : d.Grows d' := by
  obtain h | ⟨a, d1, ha, h⟩ := fails_bind.mp h
  · exact hfields.of_fails h
  · exact (hfields.of_gives ha).trans (hrest a d1 h)

/-- So a type that is registered before its fields is there when the builder fails. -/
theorem stands_unfinished {t : WireType} {fields : Build α} {rest : α → Build β} (hn : d.types.get? t.name = none)
    (hfields : fields.Grows) (hrest : ∀ a d₁, (rest a).Fails d₁ e d' → d₁.Grows d')
    (h : (add t >>= fun _ => fields >>= rest).Fails d e d') : d'.types.get? t.name = some t :=
  (grows_of_unfinished hfields hrest (fails_modify.mp h)).types (Draft.get?_add_self hn)

theorem grows_of_refused {c : Prop} [Decidable c] {e' : ModelError} (hx : x.Fails d e d' → d.Grows d')
    (h : (if c then (throw e' : Build Unit) >>= fun _ => x else x).Fails d e d') : d.Grows d' := by
  obtain ⟨-, -, rfl⟩ | ⟨-, h⟩ := fails_guard.mp h
  · exact .refl _
  · exact hx h

/-- Nothing fails after the fields are there. -/
theorem not_fails_complete {t : WireType} {ref : TypeRef} :
    ¬ (replace t >>= fun _ => (pure ref : Build TypeRef)).Fails d e d' :=
  fun h => fails_pure (show (pure ref : Build TypeRef).Fails (d.replace t) e d' from h)

theorem conflict_objectNamed {interfaces : List String} {t : WireType} (ht : d.types.get? name = some t)
    (hk : t.isObject = false) : (objectNamed s w name interfaces r).Fails d (.nameConflict name) d := by
  rw [objectNamed, fails_type?, ht]
  cases t with
  | object t => cases hk
  | _ => exact fails_throw.mpr ⟨rfl, rfl⟩

theorem conflict_inputObject {t : WireType} (ht : d.types.get? (r.name ++ "Input") = some t)
    (hk : ∀ u, t ≠ .inputObject u) : (inputObject s w r).Fails d (.nameConflict (r.name ++ "Input")) d := by
  simp only [inputObject]
  rw [fails_type?, ht]
  cases t with
  | inputObject t => exact absurd rfl (hk t)
  | _ => exact fails_throw.mpr ⟨rfl, rfl⟩

theorem repeats_inputObject {u : InputObjectType} (hu : d.types.get? (r.name ++ "Input") = some (.inputObject u)) :
    (inputObject s w r).Gives d (.named (r.name ++ "Input")) d :=
  gives_bind.mpr ⟨_, d, gives_type?.mpr ⟨hu.symm, rfl⟩, gives_pure.mpr ⟨rfl, rfl⟩⟩

/-- An interface was taken by another type, or is registered unfinished. -/
theorem fails_interface (hw : w.Grows) (h : (interface s w r).Fails d e d') :
    (∃ t, d.types.get? r.name = some t ∧ t.isInterface = false) ∧ e = .nameConflict r.name ∧ d' = d ∨
      d.types.get? r.name = none ∧ ∃ u, d'.types.get? r.name = some (.interface u) := by
  rw [interface, fails_type?] at h
  split at h
  · exact (fails_pure h).elim
  · rename_i t hk ht
    obtain ⟨rfl, rfl⟩ := fails_throw.mp h
    refine .inl ⟨⟨t, ht, ?_⟩, rfl, rfl⟩
    cases t with
    | interface t => exact absurd rfl (hk t)
    | _ => rfl
  · rename_i hn
    exact .inr ⟨hn, _, stands_unfinished (t := .interface _) hn (grows_outputFields hw _ _)
      (fun fields d1 => grows_of_refused fun h => (not_fails_complete h).elim) h⟩

theorem fails_objectNamed (hw : w.Grows) {interfaces : List String}
    (h : (objectNamed s w name interfaces r).Fails d e d') :
    (∃ t, d.types.get? name = some t ∧ t.isObject = false) ∧ e = .nameConflict name ∧ d' = d ∨
      d.types.get? name = none ∧ ∃ u, d'.types.get? name = some (.object u) := by
  rw [objectNamed, fails_type?] at h
  split at h
  · exact (fails_pure h).elim
  · rename_i t hk ht
    obtain ⟨rfl, rfl⟩ := fails_throw.mp h
    refine .inl ⟨⟨t, ht, ?_⟩, rfl, rfl⟩
    cases t with
    | object t => exact absurd rfl (hk t)
    | _ => rfl
  · rename_i hn
    refine .inr ⟨hn, _, stands_unfinished (t := .object _) hn (grows_outputFields hw _ _)
      (fun fields d1 => grows_of_refused fun h => ?_) h⟩
    exact grows_of_unfinished (grows_forM fun i _ => grows_ensureInterface hw i)
      (fun u d2 h => (not_fails_complete h).elim) h

theorem fails_inputObject (hw : w.Grows) (h : (inputObject s w r).Fails d e d') :
    (∃ t, d.types.get? (r.name ++ "Input") = some t ∧ ∀ u, t ≠ .inputObject u) ∧
        e = .nameConflict (r.name ++ "Input") ∧ d' = d ∨
      d.types.get? (r.name ++ "Input") = none ∧ ∃ u, d'.types.get? (r.name ++ "Input") = some (.inputObject u) := by
  rw [inputObject, fails_type?] at h
  split at h
  · exact (fails_pure h).elim
  · rename_i t hk ht
    obtain ⟨rfl, rfl⟩ := fails_throw.mp h
    exact .inl ⟨⟨t, ht, hk⟩, rfl, rfl⟩
  · rename_i hn
    exact .inr ⟨hn, _, stands_unfinished (t := .inputObject _) hn (grows_inputFields hw _ _)
      (fun fields d1 => grows_of_refused fun h => (not_fails_complete h).elim) h⟩

theorem again_objectNamed (hw : w.Grows) {interfaces : List String} (he : e ≠ .outOfSteps)
    (h : (objectNamed s w name interfaces r).Fails d e d') :
    Again (objectNamed s w' name interfaces r) d' (Opened d d' name WireType.isObject) := by
  obtain ⟨⟨t, ht, hk⟩, rfl, rfl⟩ | ⟨hn, u, hu⟩ := fails_objectNamed hw h
  · exact .of_taken ht he (conflict_objectNamed ht hk)
  · exact .inl ⟨⟨hn, _, hu, rfl⟩, _, repeats_objectNamed hu⟩

theorem again_inputObject (hw : w.Grows) (he : e ≠ .outOfSteps) (h : (inputObject s w r).Fails d e d') :
    Again (inputObject s w' r) d' (Opened d d' (r.name ++ "Input") fun t => t matches .inputObject _) := by
  obtain ⟨⟨t, ht, hk⟩, rfl, rfl⟩ | ⟨hn, u, hu⟩ := fails_inputObject hw h
  · exact .of_taken ht he (conflict_inputObject ht hk)
  · exact .inl ⟨⟨hn, _, hu, rfl⟩, _, repeats_inputObject hu⟩

/-- A type of paging that is an object has a name of its own. -/
theorem not_object_of_adds {id string boolean : TypeRef} {d d' : Draft} {t : WireType}
    (hadds : AddsOnly (markerTypes s id string boolean) d d')
    (hn : d.types.get? (name ++ "Connection") = none) (ht : d'.types.get? (name ++ "Connection") = some t) :
    t.isObject = false := by
  obtain hold | ⟨u, rfl⟩ | ⟨hname, hmem⟩ := hadds.entry ht
  · cases hn.symm.trans hold
  · rfl
  · simp only [markerTypes, List.mem_cons, List.not_mem_nil, or_false] at hmem
    rcases hmem with rfl | rfl | rfl | rfl
    · exact absurd hname (append_connection_ne name).1
    · rfl
    · rfl
    · rfl

theorem adds_of_markers {u : Unit} (h : (markers s).Gives d u d') :
    ∃ id string boolean, AddsOnly (markerTypes s id string boolean) d d' := by
  obtain ⟨-, rfl⟩ | ⟨-, id, string, boolean, d1, d2, d3, us, h1, h2, h3, hs⟩ := gives_markers h
  · exact ⟨default, default, default, .refl _ _⟩
  · exact ⟨id, string, boolean, (addsOnly_scalar h1).trans ((addsOnly_scalar h2).trans
      ((addsOnly_scalar h3).trans (addsOnly_addAll hs)))⟩

theorem conflict_connection {kind : String} {element : HostType} {t : WireType}
    (hr : elementRecord? s element = some r) (ht : d.types.get? (r.name ++ "Connection") = some t)
    (hk : t.isObject = false) :
    (connection s w kind element).Fails d (.nameConflict (r.name ++ "Connection")) d := by
  unfold connection
  rw [hr]
  simp only
  rw [fails_type?, ht]
  cases t with
  | object t => cases hk
  | _ => exact fails_throw.mpr ⟨rfl, rfl⟩

/-- A connection without a required identifier, or without the types of paging, fails before it is registered. -/
theorem stops_connection {kind : String} {element : HostType} (hr : elementRecord? s element = some r)
    (hn : d.types.get? (r.name ++ "Connection") = none)
    (h : hasNodeId s r = false ∧ e = .connectionElement r.name ∨ hasNodeId s r = true ∧ (markers s).Fails d e d) :
    (connection s w kind element).Fails d e d := by
  unfold connection
  rw [hr]
  simp only
  rw [fails_type?, hn]
  refine fails_guard.mpr (h.imp (fun ⟨hid, he⟩ => ?_) fun ⟨hid, hm⟩ => ?_)
  · exact ⟨by simp [hid], he, rfl⟩
  · exact ⟨by simp [hid], fails_bind.mpr (.inl hm)⟩

/-- How a connection fails: its name is taken and it leaves all as it is, or it stops before it is registered, or
below the registered type, if that has got its name. -/
theorem fails_connection (hw : w.Grows) {kind : String} {element : HostType}
    (hr : elementRecord? s element = some r) (h : (connection s w kind element).Fails d e d') :
    (∃ t, d.types.get? (r.name ++ "Connection") = some t) ∧ d' = d ∧
        (∀ w', (connection s w' kind element).Fails d e d) ∨
      d.types.get? (r.name ++ "Connection") = none ∧
        (d' = d ∧ hasNodeId s r = false ∧ e = .connectionElement r.name ∨
          hasNodeId s r = true ∧ ((markers s).Fails d e d' ∨
            ∃ d₁, (markers s).Gives d () d₁ ∧
              ((d₁.noteConnection (r.name ++ "Connection") (extraNames s kind)).add
                (connectionType s kind r [])).Grows d')) := by
  unfold connection at h ⊢
  rw [hr] at h ⊢
  simp only [fails_type?] at h ⊢
  split at h
  · rename_i o ho
    have hsame : d' = d := by
      obtain hget | ⟨d1, d2, hd, hnoted⟩ := fails_bind.mp h
      · cases hget
      obtain ⟨rfl, rfl⟩ := gives_get.mp hd
      split at hnoted
      · split at hnoted
        · exact (fails_pure hnoted).elim
        · exact (fails_throw.mp hnoted).2
      · exact (fails_pure hnoted).elim
    subst hsame
    exact .inl ⟨⟨_, ho⟩, rfl, fun _ => h⟩
  · rename_i t hk ht
    obtain ⟨rfl, rfl⟩ := fails_throw.mp h
    exact .inl ⟨⟨t, ht⟩, rfl, fun _ => h⟩
  · rename_i hn
    refine .inr ⟨hn, ?_⟩
    obtain ⟨hid, rfl, rfl⟩ | ⟨hid, h⟩ := fails_guard.mp h
    · exact .inl ⟨rfl, by simpa using hid, rfl⟩
    refine .inr ⟨by simpa using hid, ?_⟩
    obtain h | ⟨u, d1, hm, h⟩ := fails_bind.mp h
    · exact .inl h
    refine .inr ⟨d1, hm, ?_⟩
    refine grows_of_unfinished (grows_objectNamed hw _ _ _) (fun _ d2 h => ?_) (fails_modify.mp (fails_modify.mp h))
    refine grows_of_unfinished (grows_scalar s _) (fun _ d3 h => ?_) h
    refine grows_of_unfinished (grows_addUnlessPresent (by trivial)) (fun _ d4 h => ?_) h
    exact grows_of_unfinished (grows_outputFields hw _ _) (fun _ d5 h => (not_fails_complete h).elim) h

theorem again_connection (hw : w.Grows) {kind : String} {element : HostType}
    (hr : elementRecord? s element = some r) (he : e ≠ .outOfSteps)
    (h : (connection s w kind element).Fails d e d') :
    Again (connection s w' kind element) d' (Opened d d' (r.name ++ "Connection") WireType.isObject) := by
  obtain ⟨⟨t, ht⟩, rfl, hagain⟩ | ⟨hn, ⟨rfl, hstop⟩ | ⟨hid, hm | ⟨d1, hm, hgrows⟩⟩⟩ := fails_connection hw hr h
  · exact .of_taken ht he (hagain w')
  · exact .inr ⟨not_opened_of_none hn, e, he, stops_connection hr hn (.inl hstop)⟩
  · obtain ⟨hagain, id, string, boolean, hadds⟩ := fails_markers hm
    cases hd' : d'.types.get? (r.name ++ "Connection") with
    | none =>
      exact .inr ⟨not_opened_of_none hd', e, he, stops_connection hr hd' (.inr ⟨hid, hagain⟩)⟩
    | some t =>
      have hk := not_object_of_adds hadds hn hd'
      refine .inr ⟨fun ⟨_, u, hu, hku⟩ => ?_, _, by simp, conflict_connection hr hd' hk⟩
      cases hd'.symm.trans hu
      exact absurd hku (by simp [hk])
  · obtain ⟨id, string, boolean, hadds⟩ := adds_of_markers hm
    cases hd1 : d1.types.get? (r.name ++ "Connection") with
    | none =>
      -- The unfinished type stands there, and what is noted for it is of the kind that is asked for.
      have hu : d'.types.get? (r.name ++ "Connection") = some (connectionType s kind r []) :=
        hgrows.types (Draft.get?_add_self hd1)
      have hnotes : Entries.get? d'.connectionFields (r.name ++ "Connection") = _ :=
        hgrows.notes (Draft.get?_add_ne_none _ (connectionType s kind r []))
      refine .inl ⟨⟨hn, _, hu, rfl⟩, _, repeats_connection hr hu fun defined hdef => ?_⟩
      rw [hnotes] at hdef
      change Entries.get? (Entries.insert d1.connectionFields _ _) _ = _ at hdef
      rw [Entries.get?_insert, if_pos rfl] at hdef
      exact (Option.some.inj hdef).symm
    | some t =>
      -- A scalar of paging has taken the name, or their interface where the record has no name.
      have hk := not_object_of_adds hadds hn hd1
      have hd' : d'.types.get? (r.name ++ "Connection") = some t := hgrows.types (Draft.get?_add_of_some hd1)
      refine .inr ⟨fun ⟨_, u, hu, hku⟩ => ?_, _, by simp, conflict_connection hr hd' hk⟩
      cases hd'.symm.trans hu
      exact absurd hku (by simp [hk])

theorem again_namedOutput (hw : w.Grows) (he : e ≠ .outOfSteps) (h : (namedOutput s w name).Fails d e d') :
    Again (namedOutput s w' name) d' (Opened d d' name WireType.isOutput) := by
  -- What has no output type under its name yet gets one, or fails as it failed.
  have hopened {t : WireType} (hn : d.types.get? name = none) (ht : d'.types.get? name = some t)
      (hk : t.isOutput = true) : Again (namedOutput s w' name) d' (Opened d d' name WireType.isOutput) :=
    .inl ⟨⟨hn, t, ht, hk⟩, _, repeats_namedOutput ht hk⟩
  rw [namedOutput, fails_type?] at h
  split at h
  · rename_i u hu
    obtain ⟨rfl, rfl⟩ := fails_throw.mp h
    refine .of_taken hu he ?_
    rw [namedOutput, fails_type?, hu]
    exact h
  · exact (fails_pure h).elim
  · rename_i hn
    split at h
    · rename_i r _ hr
      obtain rfl := Setting.name_of_interface? hr
      obtain ⟨⟨t, ht, -⟩, -⟩ | ⟨-, u, hu⟩ := fails_interface hw h
      · cases hn.symm.trans ht
      · exact hopened hn hu rfl
    · rename_i r _ hr
      obtain rfl := Setting.name_of_record? hr
      obtain ⟨⟨t, ht, -⟩, -⟩ | ⟨-, u, hu⟩ := fails_objectNamed hw h
      · cases hn.symm.trans ht
      · exact hopened hn hu rfl
    · rename_i hi hr
      split at h
      · rename_i hm
        obtain h | ⟨u, d1, -, h⟩ := fails_bind.mp h
        · obtain ⟨hagain, -⟩ := fails_markers h
          cases hd' : d'.types.get? name with
          | none =>
            refine .inr ⟨not_opened_of_none hd', e, he, ?_⟩
            rw [namedOutput, fails_type?, hd', hi, hr]
            simp only [hm, if_true]
            exact fails_bind.mpr (.inl hagain)
          | some t =>
            have hk := ((grows_markers s).of_fails h).isOutput_of_marker hn hm hd'
            exact hopened hn hd' hk
        · exact (fails_pure h).elim
      · rename_i hm
        obtain ⟨rfl, rfl⟩ := fails_throw.mp h
        refine .inr ⟨not_opened_of_none hn, _, he, ?_⟩
        rw [namedOutput, fails_type?, hn, hi, hr]
        simp only [hm]
        exact fails_throw.mpr ⟨rfl, rfl⟩

theorem repeats_namedInput {t : WireType} (ht : d.types.get? name = some t) (hk : t.isInput = true) :
    (namedInput s w name).Gives d (.named name) d := by
  refine gives_bind.mpr ⟨_, d, gives_type?.mpr ⟨ht.symm, rfl⟩, ?_⟩
  cases t with
  | object t => cases hk
  | interface t => cases hk
  | _ => exact gives_pure.mpr ⟨rfl, rfl⟩

/-- A reference by name as an input that finds no input type means the input form of its record. -/
theorem outcome_namedInput (hno : ∀ t, d.types.get? name = some t → t.isInput = false) :
    (namedInput s w name).outcome d =
      (((s.record? name).or (s.interface? name)).elim (throw (.unmappableType name)) (inputObject s w)).outcome d := by
  rw [namedInput, outcome_type?]
  cases hd : d.types.get? name with
  | none => cases (s.record? name).or (s.interface? name) <;> rfl
  | some t =>
    have hk := hno t hd
    cases t with
    | object t => cases (s.record? name).or (s.interface? name) <;> rfl
    | interface t => cases (s.record? name).or (s.interface? name) <;> rfl
    | _ => cases hk

theorem again_namedInput (hw : w.Grows) (he : e ≠ .outOfSteps) (h : (namedInput s w name).Fails d e d') :
    Again (namedInput s w' name) d' (Mapping.LeavesOpen s d d' (.input (.named name))) := by
  have hno : ∀ t, d.types.get? name = some t → t.isInput = false := by
    intro t ht
    by_contra hk
    exact (repeats_namedInput ht (Bool.not_eq_false _ ▸ hk)).not_fails h
  have hbelow {d : Draft} {w : Walker} (hno : ∀ t, d.types.get? name = some t → t.isInput = false) :=
    outcome_namedInput (s := s) (w := w) hno
  rw [Fails, hbelow hno] at h
  cases hr : (s.record? name).or (s.interface? name) with
  | none =>
    simp only [hr] at h hbelow
    obtain ⟨rfl, rfl⟩ := fails_throw.mp h
    exact .of_formless (by rw [Mapping.form?, Setting.inputForm?, hr, Option.map_none]) he ((hbelow hno).trans h)
  | some r =>
    simp only [hr] at h hbelow
    refine .of_form (by rw [Mapping.form?, Setting.inputForm?, hr, Option.map_some]) ?_
    obtain ⟨⟨t, ht, hk⟩, rfl, rfl⟩ | ⟨hn, u, hu⟩ := fails_inputObject hw h
    · exact .of_taken ht he ((hbelow hno).trans (conflict_inputObject ht hk))
    · refine .inl ⟨⟨hn, _, hu, rfl⟩, ?_⟩
      -- What the reference finds now may be another input type that has the name.
      by_cases hfound : ∀ t, d'.types.get? name = some t → t.isInput = false
      · exact ⟨_, (hbelow hfound).trans (repeats_inputObject hu)⟩
      · obtain ⟨t, hfound⟩ := not_forall.mp hfound
        obtain ⟨ht, hk⟩ := Classical.not_imp.mp hfound
        exact ⟨_, repeats_namedInput ht (Bool.not_eq_false _ ▸ hk)⟩

theorem again_list {x y : Build TypeRef} {opened : Prop}
    (h : (x >>= fun element => return TypeRef.list element).Fails d e d')
    (hy : x.Fails d e d' → y.Again d' opened) :
    (y >>= fun element => return TypeRef.list element).Again d' opened := by
  obtain h | ⟨element, d1, -, hp⟩ := fails_bind.mp h
  · obtain ⟨ho, ref, hg⟩ | ⟨ho, e', he', hf⟩ := hy h
    · exact .inl ⟨ho, _, gives_bind.mpr ⟨ref, d', hg, gives_pure.mpr ⟨rfl, rfl⟩⟩⟩
    · exact .inr ⟨ho, e', he', fails_bind.mpr (.inl hf)⟩
  · exact (fails_pure hp).elim

end Build

/-- What the first walk fails at, the second fails at again in the draft that the first has left, unless the first
has left the type of the host type there. -/
structure Walker.Again (s : Setting) (w w' : Walker) : Prop where
  output : ∀ {t d e d'}, (w.output t).Fails d e d' → e ≠ .outOfSteps →
    (w'.output t).Again d' (Mapping.LeavesOpen s d d' (.output t))
  input : ∀ {t d e d'}, (w.input t).Fails d e d' → e ≠ .outOfSteps →
    (w'.input t).Again d' (Mapping.LeavesOpen s d d' (.input t))

namespace Walker

variable {s : Setting} {w w' : Walker} {d d' : Draft} {e : ModelError} {steps more : Nat}

theorem again_step (hw : w.Grows) (h : w.Again s w') : (step s w).Again s (step s w') where
  output {t d e d'} hfail he := by
    cases t with
    | scalar hostName =>
      obtain ⟨rfl, -⟩ := Build.fails_scalar hfail
      exact .of_formless rfl he hfail
    | enum key =>
      simp only [step] at hfail ⊢
      split at hfail
      · obtain rfl := Build.fails_enum hfail
        exact .of_formless rfl he hfail
      · obtain ⟨-, rfl⟩ := Build.fails_throw.mp hfail
        exact .of_formless rfl he hfail
    | list element => exact Build.again_list hfail fun hf => h.output (t := element) hf he
    | optional inner => exact h.output (t := inner) hfail he
    | record key =>
      simp only [step] at hfail ⊢
      cases hr : Entries.get? s.catalogue.records key with
      | some r =>
        rw [hr] at hfail
        refine .of_form ?_ (Build.again_objectNamed hw he hfail)
        rw [Mapping.form?, Setting.outputForm?, hr, Option.map_some]
      | none =>
        rw [hr] at hfail
        obtain ⟨-, rfl⟩ := Build.fails_throw.mp hfail
        exact .of_formless (by rw [Mapping.form?, Setting.outputForm?, hr, Option.map_none]) he hfail
    | connection kind element =>
      cases hr : Build.elementRecord? s element with
      | some r =>
        refine .of_form ?_ (Build.again_connection hw hr he hfail)
        rw [Mapping.form?, Setting.outputForm?, hr, Option.map_some]
      | none =>
        simp only [step, Build.connection, hr] at hfail ⊢
        obtain ⟨-, rfl⟩ := Build.fails_throw.mp hfail
        exact .of_formless (by rw [Mapping.form?, Setting.outputForm?, hr, Option.map_none]) he hfail
    | named name => exact .of_form rfl (Build.again_namedOutput hw he hfail)
  input {t d e d'} hfail he := by
    cases t with
    | scalar hostName =>
      obtain ⟨rfl, -⟩ := Build.fails_scalar hfail
      exact .of_formless rfl he hfail
    | enum key =>
      simp only [step] at hfail ⊢
      split at hfail
      · obtain rfl := Build.fails_enum hfail
        exact .of_formless rfl he hfail
      · obtain ⟨-, rfl⟩ := Build.fails_throw.mp hfail
        exact .of_formless rfl he hfail
    | list element => exact Build.again_list hfail fun hf => h.input (t := element) hf he
    | optional inner => exact h.input (t := inner) hfail he
    | record key =>
      simp only [step] at hfail ⊢
      cases hr : Entries.get? s.catalogue.records key with
      | some r =>
        rw [hr] at hfail
        refine .of_form ?_ (Build.again_inputObject hw he hfail)
        rw [Mapping.form?, Setting.inputForm?, hr, Option.map_some]
      | none =>
        rw [hr] at hfail
        obtain ⟨-, rfl⟩ := Build.fails_throw.mp hfail
        exact .of_formless (by rw [Mapping.form?, Setting.inputForm?, hr, Option.map_none]) he hfail
    | connection kind element =>
      obtain ⟨-, rfl⟩ := Build.fails_throw.mp hfail
      exact .of_formless rfl he hfail
    | named name => exact Build.again_namedInput hw he hfail

theorem again_within (hmore : steps ≤ more) : (within s steps).Again s (within s more) := by
  induction steps generalizing more with
  | zero =>
    exact ⟨fun h he => absurd (Build.fails_throw.mp h).1 he, fun h he => absurd (Build.fails_throw.mp h).1 he⟩
  | succ steps ih =>
    obtain ⟨above, rfl⟩ := Nat.exists_eq_add_of_le' hmore
    exact again_step (grows_within s steps) (ih (Nat.le_add_left steps above))

end Walker

namespace Mapping

variable {s : Setting} {m : Mapping} {d d' : Draft} {e : ModelError} {steps more : Nat}

theorem again (h : (m.run (.within s steps)).Fails d e d') (he : e ≠ .outOfSteps) (hmore : steps ≤ more) :
    (m.run (.within s more)).Again d' (m.LeavesOpen s d d') := by
  cases m with
  | output t => exact (Walker.again_within hmore).output h he
  | input t => exact (Walker.again_within hmore).input h he

/-- A mapping that failed fails again in the draft that it has left, exactly unless it has left the type of its host
type there, under a name that was free. Then it gives a reference. The draft stays as it is either way. -/
theorem fails_again_iff (h : (m.run (.within s steps)).Fails d e d') (he : e ≠ .outOfSteps) (hmore : steps ≤ more) :
    ((∃ e', e' ≠ .outOfSteps ∧ (m.run (.within s more)).Fails d' e' d') ↔ ¬ m.LeavesOpen s d d') ∧
      ((∃ ref, (m.run (.within s more)).Gives d' ref d') ↔ m.LeavesOpen s d d') := by
  obtain ⟨hopen, ref, hgives⟩ | ⟨hclosed, e', he', hfails⟩ := again h he hmore
  · exact ⟨iff_of_false (fun ⟨_, _, hf⟩ => hgives.not_fails hf) (not_not_intro hopen),
      iff_of_true ⟨ref, hgives⟩ hopen⟩
  · exact ⟨iff_of_true ⟨e', he', hfails⟩ hclosed, iff_of_false (fun ⟨_, hg⟩ => hg.not_fails hfails) hclosed⟩

/-- A catalogue with a record that has no fields. -/
def hollow : Setting := { catalogue := { records := [("Empty", { name := "Empty" })] }, options := {} }

/-- The draft that the record leaves when its mapping fails. -/
def hollowed : Draft := ((output (.record "Empty")).run (.within hollow 9)).after {}

/-- Pages of the record fail twice for want of an identifier. The record itself fails once. -/
theorem hollow_again :
    let pages : Mapping := .output (.connection "Connection" (.record "Empty"))
    let empty : Mapping := .output (.record "Empty")
    (pages.run (.within hollow 9)).Fails {} (.connectionElement "Empty") {} ∧
      (∃ e', e' ≠ .outOfSteps ∧ (pages.run (.within hollow 9)).Fails {} e' {}) ∧
      (empty.run (.within hollow 9)).Fails {} (.emptyType "Empty") hollowed ∧
      ∃ ref, (empty.run (.within hollow 9)).Gives hollowed ref hollowed := by
  intro pages empty
  have hpages : (pages.run (.within hollow 9)).Fails {} (.connectionElement "Empty") {} := by rfl
  have hempty : (empty.run (.within hollow 9)).Fails {} (.emptyType "Empty") hollowed := by rfl
  refine ⟨hpages, (fails_again_iff hpages (by simp) (Nat.le_refl _)).1.mpr ?_, hempty,
    (fails_again_iff hempty (by simp) (Nat.le_refl _)).2.mpr ?_⟩
  · rintro ⟨form, -, -, t, ht, -⟩
    cases ht
  · exact ⟨("Empty", WireType.isObject), rfl, rfl, _, rfl, rfl⟩

/-- As an output and as an input, the record without fields is refused once and accepted the next time. -/
theorem hollow_accepted :
    (∃ d, ((output (.record "Empty")).run (.within hollow 9)).Fails {} (.emptyType "Empty") d ∧
      ((output (.record "Empty")).run (.within hollow 9)).Gives d (.named "Empty") d) ∧
    ∃ d, ((input (.record "Empty")).run (.within hollow 9)).Fails {} (.emptyType "EmptyInput") d ∧
      ((input (.record "Empty")).run (.within hollow 9)).Gives d (.named "EmptyInput") d :=
  ⟨⟨_, rfl, rfl⟩, _, rfl, rfl⟩

end Mapping

end RecordGraph
