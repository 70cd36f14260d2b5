import RecordGraph.Proofs.Build.MoreSteps
import RecordGraph.Proofs.Build.Registered
import RecordGraph.Proofs.Decode.Ending
/-! When a build ends. Every name that the walk registers for a record is one of finitely many, and between
two registrations it only peels layers off a host type; so the names that are still free, times the layers
of the thickest host type, bound the steps that the walk takes from any draft. The outcomes of all walks
are therefore those of one walk without a bound, which takes itself for the walk below it. -/

namespace RecordGraph

/-! Room for more steps. -/

/-- A condition that is stronger, and fails of some item of which the other holds, holds of fewer. -/
theorem countP_lt {α : Type} {p q : α → Bool} {as : List α} {a : α} (h : ∀ b ∈ as, p b → q b)
    (ha : a ∈ as) (hq : q a) (hp : ¬ p a) : as.countP p < as.countP q := by
  induction as with
  | nil => exact absurd ha List.not_mem_nil
  | cons b as ih =>
    rw [List.forall_mem_cons] at h
    rw [List.countP_cons, List.countP_cons]
    rcases List.mem_cons.mp ha with rfl | ha
    · have hle : as.countP p ≤ as.countP q := List.countP_mono_left h.2
      rw [if_neg hp, if_pos hq]
      omega
    · have hlt := ih h.2 ha
      by_cases hb : p b
      · rw [if_pos hb, if_pos (h.1 hb)]
        omega
      · rw [if_neg hb]
        omega

/-- Every host type of some fields and their arguments has at most so many layers. -/
def Thin (layers : Nat) (fields : List Field) : Prop :=
  ∀ f ∈ fields, ∀ t ∈ Setting.fieldTypes f, t.depth ≤ layers

theorem HostType.depth_pos (t : HostType) : 0 < t.depth := by
  cases t <;> simp [depth]

namespace Setting

/-- No field that the walk may meet has a host type with more layers. -/
structure Bound (s : Setting) (layers : Nat) : Prop where
  records : ∀ r ∈ s.knownRecords, Thin layers r.fields
  kinds : ∀ kind, Thin layers (Build.kindOf s kind).fields

/-- The names under which the walk registers the types of a record. -/
def formNames (r : Record) : List String :=
  [r.name, r.name ++ "Node", r.name ++ "Connection", r.name ++ "Input"]

/-- The names under which the walk registers the types of all records. -/
def typeNames (s : Setting) : List String := s.knownRecords.flatMap formNames

variable {s : Setting} {name : String} {r : Record}

theorem mem_typeNames (hr : r ∈ s.knownRecords) (hname : name ∈ formNames r) : name ∈ s.typeNames :=
  List.mem_flatMap.mpr ⟨r, hr, hname⟩

theorem length_typeNames (s : Setting) : s.typeNames.length = 4 * s.knownRecords.length := by
  simp [typeNames, formNames, List.length_flatMap, Nat.mul_comm]

theorem known_of_record? (h : s.record? name = some r) : r ∈ s.knownRecords := by
  have hm := List.mem_of_find?_eq_some h
  simp only [knownRecords, List.mem_reverse, List.mem_append] at hm ⊢
  tauto

theorem known_of_interface? (h : s.interface? name = some r) : r ∈ s.knownRecords := by
  have hm := mem_of_interface? h
  simp only [knownRecords, List.mem_append]
  tauto

theorem known_of_catalogue (h : Entries.get? s.catalogue.records name = some r) : r ∈ s.knownRecords := by
  have hm := List.mem_map_of_mem (f := Prod.snd) (Entries.mem_of_get? h)
  simp only [knownRecords, List.mem_append]
  exact .inl (.inl (.inl hm))

theorem known_of_elementRecord? {element : HostType} (h : Build.elementRecord? s element = some r) :
    r ∈ s.knownRecords := by
  unfold Build.elementRecord? at h
  split at h
  · exact known_of_catalogue h
  · exact known_of_record? h
  · cases h

end Setting

namespace Draft

variable {s : Setting} {d d' : Draft} {name : String}

/-- How many of the names of records are still free. -/
def vacant (s : Setting) (d : Draft) : Nat := s.typeNames.countP fun name => (d.types.get? name).isNone

theorem Grows.isNone (h : d.Grows d') (hn : (d'.types.get? name).isNone) : (d.types.get? name).isNone := by
  cases ht : d.types.get? name with
  | none => rfl
  | some t =>
    rw [h.types ht] at hn
    exact hn

theorem vacant_le (h : d.Grows d') : d'.vacant s ≤ d.vacant s :=
  List.countP_mono_left fun _ _ => h.isNone

/-- A name that is taken is one less that is free. -/
theorem vacant_lt (h : d.Grows d') (hname : name ∈ s.typeNames) (hn : d.types.get? name = none)
    (ht : d'.types.get? name ≠ none) : d'.vacant s < d.vacant s := by
  refine countP_lt (fun n _ hn' => h.isNone hn') hname (by simp [hn]) ?_
  simpa using ht

/-- Room for the steps below a name that is registered. -/
def Room (s : Setting) (layers steps : Nat) (d : Draft) : Prop := layers + d.vacant s * layers ≤ steps

variable {layers steps : Nat}

theorem Room.mono (h : d.Grows d') (hr : d.Room s layers steps) : d'.Room s layers steps :=
  Nat.le_trans (Nat.add_le_add_left (Nat.mul_le_mul_right _ (vacant_le h)) _) hr

/-- Steps enough for the names that are free make room once one of them is registered. -/
theorem room_of_taken (hsteps : d.vacant s * layers ≤ steps) (h : d.Grows d') (hname : name ∈ s.typeNames)
    (hn : d.types.get? name = none) (ht : d'.types.get? name ≠ none) : d'.Room s layers steps := by
  have hmul := Nat.mul_le_mul_right layers (vacant_lt h hname hn ht)
  rw [Nat.succ_mul] at hmul
  unfold Room
  omega

/-- A type that takes a free name of a record makes room. -/
theorem room_add {t : WireType} (ht : t.NamedByKind) (hsteps : d.vacant s * layers ≤ steps)
    (hname : t.name ∈ s.typeNames) (hn : d.types.get? t.name = none) : (d.add t).Room s layers steps :=
  room_of_taken hsteps (d.grows_add ht) hname hn (d.get?_add_ne_none t)

theorem Room.below (h : d.Room s layers steps) : d.vacant s * layers ≤ steps :=
  Nat.le_trans (Nat.le_add_left _ _) h

end Draft

/-- A walk that ends from every draft for which its steps suffice. -/
structure Walker.Reaches (s : Setting) (layers steps : Nat) (w : Walker) : Prop where
  output : ∀ t d, t.depth + d.vacant s * layers ≤ steps → (w.output t).Ends d
  input : ∀ t d, t.depth + d.vacant s * layers ≤ steps → (w.input t).Ends d

namespace Build

variable {α β : Type} {s : Setting} {w : Walker} {d : Draft} {layers steps : Nat}

/-! Leaves end anyway. -/

theorem ends_pure (a : α) : (pure a : Build α).Ends d := by
  intro h
  cases h

theorem ends_throw {e : ModelError} (h : e ≠ .outOfSteps) : (throw e : Build α).Ends d := by
  intro he
  cases he
  exact h rfl

theorem ends_get : (get : Build Draft).Ends d := by
  intro h
  cases h

theorem ends_type? {name : String} {f : Option WireType → Build α} (h : (f (d.types.get? name)).Ends d) :
    (type? name >>= f).Ends d := h

theorem ends_modify {g : Draft → Draft} {f : Unit → Build α} (h : (f ()).Ends (g d)) :
    ((modify g : Build Unit) >>= f).Ends d := h

theorem ends_guard {c : Prop} [Decidable c] {e : ModelError} {x : Build α} (he : e ≠ .outOfSteps)
    (hx : x.Ends d) : (if c then (throw e : Build Unit) >>= fun _ => x else x).Ends d := by
  split
  · exact ends_bind.mpr ⟨ends_throw he, fun a d' h => (gives_throw h).elim⟩
  · exact hx

theorem ends_scalar (hostName : String) : (scalar s hostName).Ends d := by
  unfold scalar
  split
  · exact ends_throw (by simp)
  · refine ends_type? ?_
    split
    · exact ends_pure _
    · exact ends_throw (by simp)
    · exact ends_modify (ends_pure _)

theorem ends_enum (e : EnumType) : (enum e).Ends d := by
  refine ends_type? ?_
  split
  · exact ends_pure _
  · exact ends_throw (by simp)
  · exact ends_guard (by simp) (ends_modify (ends_pure _))

theorem ends_defaultValue (name : String) (v : Option Value) : (defaultValue name v).Ends d := by
  unfold defaultValue
  split
  · exact ends_pure _
  · split
    · exact ends_pure _
    · exact ends_throw (by simp)

theorem ends_addUnlessPresent (t : WireType) : (addUnlessPresent t).Ends d := by
  refine ends_type? ?_
  split
  · split
    · exact ends_pure _
    · exact ends_throw (by simp)
  · exact ends_modify (ends_pure _)

/-! Lists of steps end if each does from drafts of a kind that all of them keep to. -/

theorem ends_mapM {x : α → Build β} {P : Draft → Prop} {as : List α} (hd : P d)
    (hx : ∀ a ∈ as, ∀ e, P e → (x a).Ends e ∧ ∀ b e', (x a).Gives e b e' → P e') : (as.mapM x).Ends d := by
  induction as generalizing d with
  | nil => exact ends_pure _
  | cons a as ih =>
    rw [List.forall_mem_cons] at hx
    obtain ⟨ha, hkeep⟩ := hx.1 d hd
    rw [List.mapM_cons]
    refine ends_bind.mpr ⟨ha, fun b d' hb => ends_bind.mpr ⟨?_, fun _ _ _ => ends_pure _⟩⟩
    exact ih (hkeep b d' hb) hx.2

theorem ends_forM {x : α → Build Unit} {P : Draft → Prop} {as : List α} (hd : P d)
    (hx : ∀ a ∈ as, ∀ e, P e → (x a).Ends e ∧ ∀ b e', (x a).Gives e b e' → P e') : (as.forM x).Ends d := by
  induction as generalizing d with
  | nil => exact ends_pure _
  | cons a as ih =>
    rw [List.forall_mem_cons] at hx
    obtain ⟨ha, hkeep⟩ := hx.1 d hd
    exact ends_bind.mpr ⟨ha, fun b d' hb => ih (hkeep b d' hb) hx.2⟩

theorem ends_foldlM {x : β → α → Build β} {P : Draft → Prop} {as : List α} {b : β} (hd : P d)
    (hx : ∀ a ∈ as, ∀ b e, P e → (x b a).Ends e ∧ ∀ c e', (x b a).Gives e c e' → P e') :
    (as.foldlM x b).Ends d := by
  induction as generalizing b d with
  | nil => exact ends_pure _
  | cons a as ih =>
    rw [List.forall_mem_cons] at hx
    obtain ⟨ha, hkeep⟩ := hx.1 b d hd
    rw [List.foldlM_cons]
    exact ends_bind.mpr ⟨ha, fun c d' hc => ih (hkeep c d' hc) hx.2⟩

theorem ends_discard {x : Build α} (h : x.Ends d) : (discard x).Ends d := by
  change Ends ((fun _ => ()) <$> x) d
  rw [map_eq_pure_bind]
  exact ends_bind.mpr ⟨h, fun _ _ _ => ends_pure _⟩

theorem ends_markers (s : Setting) : (markers s).Ends d := by
  refine ends_type? ?_
  split
  · exact ends_pure _
  · refine ends_bind.mpr ⟨ends_scalar _, fun _ _ _ => ends_bind.mpr ⟨ends_scalar _, fun _ _ _ =>
      ends_bind.mpr ⟨ends_scalar _, fun _ _ _ => ?_⟩⟩⟩
    refine ends_forM (P := fun _ => True) trivial fun t _ _ _ => ⟨?_, fun _ _ _ => trivial⟩
    exact ends_addUnlessPresent t

theorem ends_paging (arguments : List WireArgument) :
    (pagingArguments.foldlM (addPagingArgument s) arguments).Ends d := by
  refine ends_foldlM (P := fun _ => True) trivial fun p _ given e _ => ⟨?_, fun _ _ _ => trivial⟩
  obtain ⟨name, host, text⟩ := p
  unfold addPagingArgument
  simp only
  split
  · exact ends_pure _
  · exact ends_bind.mpr ⟨ends_scalar _, fun _ _ _ => ends_pure _⟩

/-! Builders that use a walk for the types below them. -/

theorem ends_argument (hw : w.Reaches s layers steps) {field : String} {a : Argument}
    (ha : a.type.depth ≤ layers) (hr : d.Room s layers steps) : (argument s w field a).Ends d := by
  have hbody : (do let type ← w.input a.type
                   let default ← defaultValue a.name a.default
                   return { name := s.wireName a.name, hostName := a.name, description := a.description,
                            type := if a.required then type.required else type,
                            default := default } : Build WireArgument).Ends d :=
    ends_bind.mpr ⟨hw.input _ _ (Nat.le_trans (Nat.add_le_add_right ha _) hr), fun _ _ _ =>
      ends_bind.mpr ⟨ends_defaultValue _ _, fun _ _ _ => ends_pure _⟩⟩
  unfold argument
  cases a.isInput with
  | true => exact hbody
  | false =>
    cases recordName? s a.type with
    | none => exact hbody
    | some type => exact ends_bind.mpr ⟨ends_throw (by simp), fun a d' h => (gives_throw h).elim⟩

section
variable (hw : w.Reaches s layers steps) (hg : w.Grows)
include hw hg

theorem ends_outputField {f : Field} (hf : ∀ t ∈ Setting.fieldTypes f, t.depth ≤ layers)
    (hr : d.Room s layers steps) : (outputField s w f).Ends d := by
  have hdepth := hf f.type List.mem_cons_self
  refine ends_bind.mpr ⟨hw.output _ _ (Nat.le_trans (Nat.add_le_add_right hdepth _) hr), fun ref d1 h1 => ?_⟩
  have hr1 := hr.mono ((hg.output _).of_gives h1)
  refine ends_bind.mpr ⟨ends_mapM hr1 fun a ha e he => ⟨?_, fun b e' hb => ?_⟩, fun arguments d2 h2 => ?_⟩
  · exact ends_argument hw (hf _ (List.mem_cons_of_mem _ (List.mem_map_of_mem ha))) he
  · exact he.mono ((grows_argument hg f.name a).of_gives hb)
  · cases f.type.stripOptional with
    | connection kind element => exact ends_bind.mpr ⟨ends_paging _, fun _ _ _ => ends_pure _⟩
    | _ => exact ends_pure _

theorem ends_outputFields {type : String} {fields : List Field} (hf : Thin layers fields)
    (hr : d.Room s layers steps) : (outputFields s w type fields).Ends d := by
  refine ends_foldlM hr fun f hm acc e he => ?_
  have hfield := ends_outputField hw hg (hf f (List.mem_of_mem_filter hm)) he
  refine ⟨ends_bind.mpr ⟨hfield, fun _ _ _ => ends_guard (by simp) (ends_pure _)⟩, fun out e' h => ?_⟩
  obtain ⟨field, hfield, -⟩ := gives_addOutputField h
  exact he.mono ((grows_outputField hg f).of_gives hfield)

theorem ends_inputFields {type : String} {fields : List Field} (hf : Thin layers fields)
    (hr : d.Room s layers steps) : (inputFields s w type fields).Ends d := by
  refine ends_foldlM hr fun f hm acc e he => ?_
  have hdepth := hf f (List.mem_of_mem_filter hm) f.type List.mem_cons_self
  have hinput := hw.input _ _ (Nat.le_trans (Nat.add_le_add_right hdepth _) he)
  refine ⟨ends_bind.mpr ⟨hinput, fun _ _ _ => ?_⟩, fun out e' h => ?_⟩
  · exact ends_guard (by simp) (ends_bind.mpr ⟨ends_defaultValue _ _, fun _ _ _ => ends_pure _⟩)
  · obtain ⟨field, hfield, -⟩ := gives_addInputField h
    obtain ⟨ref, default, href, -⟩ := gives_inputField hfield
    exact he.mono ((hg.input _).of_gives href)

theorem ends_interface {r : Record} (hb : s.Bound layers) (hk : r ∈ s.knownRecords)
    (hsteps : d.vacant s * layers ≤ steps) : (interface s w r).Ends d := by
  refine ends_type? ?_
  split
  · exact ends_pure _
  · exact ends_throw (by simp)
  · rename_i hn
    have hr := d.room_add (t := .interface { name := r.name, description := r.description }) trivial hsteps
      (Setting.mem_typeNames hk (by simp [Setting.formNames, WireType.name])) hn
    refine ends_modify (ends_bind.mpr ⟨ends_outputFields hw hg (hb.records r hk) hr, fun fields d1 h1 => ?_⟩)
    exact ends_guard (by simp) (ends_modify (ends_pure _))

theorem ends_ensureInterface (hb : s.Bound layers) (name : String)
    (hsteps : d.vacant s * layers ≤ steps) : (ensureInterface s w name).Ends d := by
  refine ends_type? ?_
  split
  · exact ends_pure _
  · exact ends_throw (by simp)
  · split
    · exact ends_markers s
    · split
      · rename_i r hr
        exact ends_discard (ends_interface hw hg hb (Setting.known_of_interface? hr) hsteps)
      · exact ends_throw (by simp)

/-- An object type needs room once its name is registered. -/
theorem ends_objectNamed_of_room {name : String} {interfaces : List String} {r : Record}
    (hb : s.Bound layers) (hf : Thin layers r.fields) (hroom : d.types.get? name = none →
      (d.add (.object { name := name, description := r.description, interfaces := interfaces })).Room
        s layers steps) : (objectNamed s w name interfaces r).Ends d := by
  refine ends_type? ?_
  split
  · exact ends_pure _
  · exact ends_throw (by simp)
  · rename_i hn
    have hr := hroom hn
    refine ends_modify (ends_bind.mpr ⟨ends_outputFields hw hg hf hr, fun fields d1 h1 => ?_⟩)
    have hr1 := hr.mono ((grows_outputFields hg _ _).of_gives h1)
    refine ends_guard (by simp) (ends_bind.mpr ⟨?_, fun _ _ _ => ends_modify (ends_pure _)⟩)
    refine ends_forM hr1 fun i _ e he => ⟨ends_ensureInterface hw hg hb i he.below, fun _ _ h => ?_⟩
    exact he.mono ((grows_ensureInterface hg i).of_gives h)

theorem ends_object {r : Record} (hb : s.Bound layers) (hk : r ∈ s.knownRecords)
    (hsteps : d.vacant s * layers ≤ steps) : (object s w r).Ends d := by
  refine ends_objectNamed_of_room hw hg hb (hb.records r hk) fun hn => ?_
  exact d.room_add trivial hsteps (Setting.mem_typeNames hk (by simp [Setting.formNames, WireType.name])) hn

theorem ends_inputObject {r : Record} (hb : s.Bound layers) (hk : r ∈ s.knownRecords)
    (hsteps : d.vacant s * layers ≤ steps) : (inputObject s w r).Ends d := by
  refine ends_type? ?_
  split
  · exact ends_pure _
  · exact ends_throw (by simp)
  · rename_i hn
    have hr := d.room_add (t := .inputObject { name := r.name ++ "Input", description := r.description,
                                               loader := r.loader }) ⟨r.name, rfl⟩ hsteps
      (Setting.mem_typeNames hk (by simp [Setting.formNames, WireType.name])) hn
    refine ends_modify (ends_bind.mpr ⟨ends_inputFields hw hg (hb.records r hk) hr, fun fields d1 h1 => ?_⟩)
    exact ends_guard (by simp) (ends_modify (ends_pure _))

theorem ends_connection (hb : s.Bound layers) (kind : String) (element : HostType)
    (hsteps : d.vacant s * layers ≤ steps) : (connection s w kind element).Ends d := by
  unfold connection
  split
  · exact ends_throw (by simp)
  · rename_i r hr
    have hk := Setting.known_of_elementRecord? hr
    refine ends_type? ?_
    split
    · refine ends_bind.mpr ⟨ends_get, fun e d1 _ => ?_⟩
      split
      · split
        · exact ends_pure _
        · exact ends_throw (by simp)
      · exact ends_pure _
    · exact ends_throw (by simp)
    · rename_i hn
      refine ends_guard (by simp) (ends_bind.mpr ⟨ends_markers s, fun _ d1 h1 => ends_modify (ends_modify ?_)⟩)
      -- The connection type takes its name before the walk goes on to the node and the extra fields.
      set d2 := (d1.noteConnection (r.name ++ "Connection") (extraNames s kind)).add
        (connectionType s kind r [])
      have hg2 : d.Grows d2 :=
        (((grows_markers s).of_gives h1).noteConnection hn).trans (Draft.grows_add _ (by trivial))
      have hr2 : d2.Room s layers steps := Draft.room_of_taken hsteps hg2
        (Setting.mem_typeNames hk (by simp [Setting.formNames])) hn (Draft.get?_add_ne_none _ _)
      have hnode : (objectNamed s w (r.name ++ "Node") ["Node"] r).Ends d2 :=
        ends_objectNamed_of_room hw hg hb (hb.records r hk) fun _ => hr2.mono (Draft.grows_add _ (by trivial))
      refine ends_bind.mpr ⟨hnode, fun node d3 h3 => ?_⟩
      refine ends_bind.mpr ⟨ends_scalar _, fun cursor d4 h4 => ?_⟩
      refine ends_bind.mpr ⟨ends_addUnlessPresent _, fun _ d5 h5 => ?_⟩
      have hg5 := ((grows_objectNamed hg _ _ _).of_gives h3).trans
        (((grows_scalar s _).of_gives h4).trans ((grows_addUnlessPresent (by trivial)).of_gives h5))
      exact ends_bind.mpr ⟨ends_outputFields hw hg (hb.kinds kind) (hr2.mono hg5),
        fun _ _ _ => ends_modify (ends_pure _)⟩

theorem ends_namedOutput (hb : s.Bound layers) (name : String) (hsteps : d.vacant s * layers ≤ steps) :
    (namedOutput s w name).Ends d := by
  refine ends_type? ?_
  split
  · exact ends_throw (by simp)
  · exact ends_pure _
  · split
    · rename_i r hr
      exact ends_interface hw hg hb (Setting.known_of_interface? hr) hsteps
    · rename_i r _ hr
      exact ends_object hw hg hb (Setting.known_of_record? hr) hsteps
    · split
      · exact ends_bind.mpr ⟨ends_markers s, fun _ _ _ => ends_pure _⟩
      · exact ends_throw (by simp)

theorem ends_namedInput (hb : s.Bound layers) (name : String) (hsteps : d.vacant s * layers ≤ steps) :
    (namedInput s w name).Ends d := by
  refine ends_type? ?_
  split
  any_goals exact ends_pure _
  split
  · rename_i r hr
    refine ends_inputObject hw hg hb ?_ hsteps
    rcases Option.or_eq_some_iff.mp hr with hr | ⟨-, hr⟩
    · exact Setting.known_of_record? hr
    · exact Setting.known_of_interface? hr
  · exact ends_throw (by simp)

end

end Build

namespace Walker

variable {s : Setting} {w : Walker} {layers steps : Nat}

theorem reaches_step (hw : w.Reaches s layers steps) (hg : w.Grows) (hb : s.Bound layers) :
    (step s w).Reaches s layers (steps + 1) where
  output t d hsteps := by
    -- A layer that is peeled off takes one step; a builder is left those for the free names.
    have hbelow : d.vacant s * layers ≤ steps := by
      have := t.depth_pos
      omega
    cases t with
    | scalar hostName => exact Build.ends_scalar _
    | enum key =>
      simp only [step]
      split
      · exact Build.ends_enum _
      · exact Build.ends_throw (by simp)
    | list element =>
      rw [HostType.depth] at hsteps
      exact Build.ends_bind.mpr ⟨hw.output element d (by omega), fun _ _ _ => Build.ends_pure _⟩
    | optional inner =>
      rw [HostType.depth] at hsteps
      exact hw.output inner d (by omega)
    | record key =>
      simp only [step]
      split
      · rename_i r hr
        exact Build.ends_object hw hg hb (Setting.known_of_catalogue hr) hbelow
      · exact Build.ends_throw (by simp)
    | connection kind element => exact Build.ends_connection hw hg hb kind element hbelow
    | named name => exact Build.ends_namedOutput hw hg hb name hbelow
  input t d hsteps := by
    have hbelow : d.vacant s * layers ≤ steps := by
      have := t.depth_pos
      omega
    cases t with
    | scalar hostName => exact Build.ends_scalar _
    | enum key =>
      simp only [step]
      split
      · exact Build.ends_enum _
      · exact Build.ends_throw (by simp)
    | list element =>
      rw [HostType.depth] at hsteps
      exact Build.ends_bind.mpr ⟨hw.input element d (by omega), fun _ _ _ => Build.ends_pure _⟩
    | optional inner =>
      rw [HostType.depth] at hsteps
      exact hw.input inner d (by omega)
    | record key =>
      simp only [step]
      split
      · rename_i r hr
        exact Build.ends_inputObject hw hg hb (Setting.known_of_catalogue hr) hbelow
      · exact Build.ends_throw (by simp)
    | connection kind element => exact Build.ends_throw (by simp)
    | named name => exact Build.ends_namedInput hw hg hb name hbelow

/-- The walk ends if it is given as many steps as its host type has layers, and for every name that is
still free as many as the thickest host type. -/
theorem reaches_within (hb : s.Bound layers) (steps : Nat) : (within s steps).Reaches s layers steps := by
  induction steps with
  | zero =>
    constructor <;> intro t d h
    all_goals
      have := t.depth_pos
      omega
  | succ steps ih => exact reaches_step ih (grows_within s steps) hb

end Walker

namespace Setting

variable {s : Setting} {roots : List Record}

theorem depth_le_thickness {f : Field} {t : HostType} (ht : t ∈ fieldTypes f)
    (hf : f ∈ (roots ++ s.knownRecords).flatMap Record.fields ++
      (s.catalogue.connections.map Prod.snd).flatMap ConnectionKind.fields) : t.depth ≤ s.thickness roots := by
  unfold thickness
  rw [← List.foldl_map (f := HostType.depth) (g := max)]
  exact (Model.le_foldl_max _ _).2 _ (List.mem_map_of_mem (List.mem_flatMap.mpr ⟨f, hf, ht⟩))

theorem thin_of_mem {r : Record} (hr : r ∈ roots ++ s.knownRecords) : Thin (s.thickness roots) r.fields :=
  fun _ hf _ ht => depth_le_thickness ht (List.mem_append_left _ (List.mem_flatMap.mpr ⟨r, hr, hf⟩))

theorem bound_thickness (s : Setting) (roots : List Record) : s.Bound (s.thickness roots) where
  records r hr := thin_of_mem (List.mem_append_right _ hr)
  kinds kind := by
    unfold Build.kindOf
    cases hk : Entries.get? s.catalogue.connections kind with
    | none => exact fun f hf => absurd hf List.not_mem_nil
    | some k =>
      have hm : k ∈ s.catalogue.connections.map Prod.snd := List.mem_map_of_mem (Entries.mem_of_get? hk)
      exact fun f hf t ht =>
        depth_le_thickness ht (List.mem_append_right _ (List.mem_flatMap.mpr ⟨k, hm, hf⟩))

theorem vacant_le_length (s : Setting) (d : Draft) : d.vacant s ≤ 4 * s.knownRecords.length :=
  s.length_typeNames ▸ List.countP_le_length

/-- The steps that a build is given make room for its root types, from any draft. -/
theorem room_of_steps {given : Nat} (hgiven : s.steps roots ≤ given) (d : Draft) :
    d.Room s (s.thickness roots) given := by
  have hlen : s.knownRecords.length ≤ (roots ++ s.knownRecords).length := by simp
  have hmul : (d.vacant s + 1) * s.thickness roots ≤
      (5 * (roots ++ s.knownRecords).length + 5) * (s.thickness roots + 1) := by
    refine Nat.mul_le_mul ?_ (Nat.le_succ _)
    have := s.vacant_le_length d
    omega
  rw [Nat.succ_mul] at hmul
  unfold Setting.steps at hgiven
  unfold Draft.Room
  omega

end Setting

/-! The walk without a bound. -/

namespace Build

variable {α : Type}

/-- The step with given outcomes. -/
def ofOutcome (f : Draft → Except ModelError α × Draft) : Build α := ExceptT.mk f

@[simp] theorem outcome_ofOutcome (f : Draft → Except ModelError α × Draft) (d : Draft) :
    (ofOutcome f).outcome d = f d := rfl

theorem ext_outcome {x y : Build α} (h : ∀ d, x.outcome d = y.outcome d) : x = y := funext h

variable {d : Draft}

theorem Le.outcome_eq {x y z : Build α} (hy : x.Le y) (hz : x.Le z) (h : x.Ends d) :
    y.outcome d = z.outcome d := (hy d h).trans (hz d h).symm

/-- Where more steps keep the outcome, any two numbers of them that are enough have the same. -/
theorem outcome_eq_of_ends {x : Nat → Build α} (hle : ∀ {m n}, m ≤ n → (x m).Le (x n)) {m n : Nat}
    (hm : (x m).Ends d) (hn : (x n).Ends d) : (x n).outcome d = (x m).outcome d := by
  rcases Nat.le_total m n with h | h
  · exact hle h d hm
  · exact (hle h d hn).symm

end Build

namespace Walker

variable {s : Setting}

/-- The steps that a host type takes from a draft at most. -/
def needed (s : Setting) (t : HostType) (d : Draft) : Nat := t.depth + d.vacant s * s.thickness []

theorem reaches_needed (s : Setting) (steps : Nat) : (within s steps).Reaches s (s.thickness []) steps :=
  reaches_within (s.bound_thickness []) steps

/-- The walk that is given as many steps as it needs, for every host type and every draft. -/
def unbounded (s : Setting) : Walker where
  output t := Build.ofOutcome fun d => ((within s (needed s t d)).output t).outcome d
  input t := Build.ofOutcome fun d => ((within s (needed s t d)).input t).outcome d

theorem outcome_unbounded_output (s : Setting) (t : HostType) (d : Draft) :
    ((unbounded s).output t).outcome d = ((within s (needed s t d)).output t).outcome d := by
  unfold unbounded
  rw [Build.outcome_ofOutcome]

theorem outcome_unbounded_input (s : Setting) (t : HostType) (d : Draft) :
    ((unbounded s).input t).outcome d = ((within s (needed s t d)).input t).outcome d := by
  unfold unbounded
  rw [Build.outcome_ofOutcome]

/-- The walk without a bound has the outcomes of the walks that are given a number of steps. -/
theorem le_unbounded (s : Setting) (steps : Nat) : (within s steps).Le (unbounded s) where
  output t d h := by
    rw [outcome_unbounded_output]
    refine Build.outcome_eq_of_ends (fun hle => (le_within hle).output t) h ?_
    exact (reaches_needed s (needed s t d)).output t d (Nat.le_refl _)
  input t d h := by
    rw [outcome_unbounded_input]
    refine Build.outcome_eq_of_ends (fun hle => (le_within hle).input t) h ?_
    exact (reaches_needed s (needed s t d)).input t d (Nat.le_refl _)

theorem eq_of_walks {w w' : Walker} (houtput : ∀ t, w.output t = w'.output t)
    (hinput : ∀ t, w.input t = w'.input t) : w = w' := by
  cases w
  cases w'
  rw [Walker.mk.injEq]
  exact ⟨funext houtput, funext hinput⟩

/-- It takes itself for the walk below it. -/
theorem step_unbounded (s : Setting) : step s (unbounded s) = unbounded s := by
  refine eq_of_walks (fun t => Build.ext_outcome fun d => ?_) (fun t => Build.ext_outcome fun d => ?_)
  -- Both sides have the outcome of the walk with one step more than is needed.
  all_goals
    have hbelow : (step s (within s (needed s t d))).Le (step s (unbounded s)) := le_step (le_unbounded s _)
    have habove := le_unbounded s (needed s t d + 1)
    have hreach := reaches_needed s (needed s t d + 1)
  · exact Build.Le.outcome_eq (hbelow.output t) (habove.output t) (hreach.output t d (Nat.le_succ _))
  · exact Build.Le.outcome_eq (hbelow.input t) (habove.input t) (hreach.input t d (Nat.le_succ _))

/-- It ends, whatever the host type and the draft. -/
theorem ends_unbounded (s : Setting) (t : HostType) (d : Draft) :
    ((unbounded s).output t).Ends d ∧ ((unbounded s).input t).Ends d := by
  have hsteps : t.depth + d.vacant s * s.thickness [] ≤ needed s t d := Nat.le_refl _
  have hreach := reaches_needed s (needed s t d)
  have hle := le_unbounded s (needed s t d)
  exact ⟨(hle.output t).ends (hreach.output t d hsteps), (hle.input t).ends (hreach.input t d hsteps)⟩

end Walker

/-! Whole builds. -/

namespace Build

variable {s : Setting} {w w' : Walker} {d : Draft} {layers steps : Nat}

theorem le_root (h : w.Le w') (name : String) (r : Record) : (root s w name r).Le (root s w' name r) :=
  le_bind (le_objectNamed h _ _ _) fun _ => .refl _

theorem le_optionalRoot (h : w.Le w') (name : String) (r : Option Record) :
    (optionalRoot s w name r).Le (optionalRoot s w' name r) := by
  cases r with
  | none => exact .refl _
  | some r => exact le_bind (le_root h name r) fun _ => .refl _

theorem le_seeds (h : w.Le w') : (seeds s w).Le (seeds s w') :=
  le_bind (.refl _) fun _ => le_bind (le_forM (fun r => le_discard (le_interface h r)) _) fun _ =>
    le_bind (le_forM (fun r => le_discard (le_objectNamed h _ _ r)) _) fun _ =>
      le_forM (fun r => le_discard (le_inputObject h r)) _

theorem le_schema (h : w.Le w') (roots : RootRecords) : (schema s w roots).Le (schema s w' roots) :=
  le_bind (le_seeds h) fun _ => le_bind (le_root h _ _) fun _ => le_bind (le_optionalRoot h _ _) fun _ =>
    le_bind (le_optionalRoot h _ _) fun _ => .refl _

section
variable (hw : w.Reaches s layers steps) (hg : w.Grows) (hb : s.Bound layers)
include hw hg hb

theorem ends_root {name : String} {r : Record} (hf : Thin layers r.fields)
    (hroom : ∀ e : Draft, e.Room s layers steps) : (root s w name r).Ends d :=
  ends_bind.mpr ⟨ends_objectNamed_of_room hw hg hb hf fun _ => hroom _, fun _ _ _ => ends_pure _⟩

theorem ends_optionalRoot {name : String} {r : Option Record} (hf : ∀ r' ∈ r, Thin layers r'.fields)
    (hroom : ∀ e : Draft, e.Room s layers steps) : (optionalRoot s w name r).Ends d := by
  cases r with
  | none => exact ends_pure _
  | some r => exact ends_bind.mpr ⟨ends_root hw hg hb (hf r rfl) hroom, fun _ _ _ => ends_pure _⟩

theorem ends_seeds (hroom : ∀ e : Draft, e.Room s layers steps) : (seeds s w).Ends d := by
  have hmem {r : Record} (hr : r ∈ s.options.interfaces ++ s.options.queryTypes ++ s.options.mutationTypes) :
      r ∈ s.knownRecords := by
    simp only [Setting.knownRecords, List.mem_append] at hr ⊢
    tauto
  refine ends_bind.mpr ⟨?_, fun _ _ _ => ends_bind.mpr ⟨?_, fun _ _ _ => ends_bind.mpr ⟨?_, fun _ _ _ => ?_⟩⟩⟩
  all_goals refine ends_forM (P := fun _ => True) trivial fun r hr e _ => ⟨ends_discard ?_, fun _ _ _ => trivial⟩
  · exact ends_enum r
  · exact ends_interface hw hg hb (hmem (by simp [hr])) (hroom e).below
  · exact ends_object hw hg hb (hmem (by simp [hr])) (hroom e).below
  · exact ends_inputObject hw hg hb (hmem (by simp [hr])) (hroom e).below

end

/-- The steps of a build end once the walk is given the steps of the setting. -/
theorem ends_schema {roots : RootRecords} (h : s.steps (Model.rootList roots) ≤ steps) (d : Draft) :
    (schema s (.within s steps) roots).Ends d := by
  have hb := s.bound_thickness (Model.rootList roots)
  have hw : (Walker.within s steps).Reaches s _ steps := Walker.reaches_within hb steps
  have hg := Walker.grows_within s steps
  have hroom (e : Draft) := s.room_of_steps h e
  have hthin {r : Record} (hr : r ∈ Model.rootList roots) :
      Thin (s.thickness (Model.rootList roots)) r.fields :=
    s.thin_of_mem (List.mem_append_left _ hr)
  refine ends_bind.mpr ⟨ends_seeds hw hg hb hroom, fun _ _ _ => ?_⟩
  refine ends_bind.mpr ⟨ends_root hw hg hb (hthin ?_) hroom, fun _ _ _ => ?_⟩
  · exact List.mem_cons_self
  refine ends_bind.mpr ⟨ends_optionalRoot hw hg hb (fun r hr => hthin ?_) hroom, fun _ _ _ => ?_⟩
  · simp [Model.rootList, Option.mem_def.mp hr]
  refine ends_bind.mpr ⟨ends_optionalRoot hw hg hb (fun r hr => hthin ?_) hroom, fun _ _ _ => ends_pure _⟩
  · simp [Model.rootList, Option.mem_def.mp hr]

end Build

namespace Model

/-- Every build ends, whatever the records refer to. A walk of unbounded recursion, which takes itself for
the walk below it, ends from every draft; the build that takes it ends too, and the steps that a build is
given, or any more of them, give it the same outcome. -/
theorem build_ends (s : Setting) (roots : RootRecords) : ∃ w : Walker, Walker.step s w = w ∧
    (∀ t d, (w.output t).Ends d ∧ (w.input t).Ends d) ∧ (Build.schema s w roots).Ends {} ∧
    (∀ steps, s.steps (rootList roots) ≤ steps →
      (Build.schema s (.within s steps) roots).outcome {} = (Build.schema s w roots).outcome {}) ∧
    build s roots ≠ .error .outOfSteps := by
  have hsame (steps : Nat) (h : s.steps (rootList roots) ≤ steps) :
      (Build.schema s (.within s steps) roots).outcome {} =
        (Build.schema s (.unbounded s) roots).outcome {} :=
    (Build.le_schema (Walker.le_unbounded s steps) roots {} (Build.ends_schema h {})).symm
  have hends : (Build.schema s (s.walker (rootList roots)) roots).Ends {} :=
    Build.ends_schema (Nat.le_refl _) {}
  refine ⟨.unbounded s, Walker.step_unbounded s, Walker.ends_unbounded s, ?_, hsame, ?_⟩
  · exact (Build.le_schema (Walker.le_unbounded s _) roots).ends hends
  · intro hbuild
    unfold build at hbuild
    split at hbuild
    · cases hbuild
    · rename_i cause d hrun
      cases hbuild
      exact hends (congrArg Prod.fst hrun)

end Model

end RecordGraph
