import RecordGraph.Proofs.Build.Registered
/-! Mapping a host type again. Once a host type is mapped, what it stands for is settled in the draft:
the names that it leads to hold types of the right kind, and nothing that a build does later undoes
that. So the same host type maps to the same wire type ever after, and the draft stays as it is. The
one exception is a connection whose type name was taken, while the types of paging were registered for
it, by a scalar that they need. -/

namespace RecordGraph

namespace HostType

/-- How many lists and optionals are around the core of a type. -/
def wraps : HostType → Nat
  | .list element => element.wraps + 1
  | .optional inner => inner.wraps + 1
  | _ => 0

/-- The name of the connection type that a host type leads to, through lists and optionals. -/
def connectionName? (s : Setting) : HostType → Option String
  | .list inner | .optional inner => inner.connectionName? s
  | .connection _ element => (Build.elementRecord? s element).map fun r => r.name ++ "Connection"
  | _ => none

theorem connectionName?_connection {s : Setting} {kind : String} {element : HostType} {r : Record}
    (hr : Build.elementRecord? s element = some r) :
    (connection kind element).connectionName? s = some (r.name ++ "Connection") := by
  rw [connectionName?, hr]
  rfl

end HostType

/-- The draft holds all that an output type stands for. -/
def Draft.Settles (s : Setting) (d : Draft) : HostType → TypeRef → Prop
  | .scalar hostName, ref => ∃ t, s.scalar? hostName = some t ∧ ref = .named t.wireName ∧
      ∃ u, d.types.get? t.wireName = some (.scalar u)
  | .enum key, ref => ∃ e, Entries.get? s.catalogue.enums key = some e ∧ ref = .named e.name ∧
      ∃ u, d.types.get? e.name = some (.enum u)
  | .list element, ref => ∃ inner, d.Settles s element inner ∧ ref = .list inner
  | .optional inner, ref => d.Settles s inner ref
  | .record key, ref => ∃ r, Entries.get? s.catalogue.records key = some r ∧ ref = .named r.name ∧
      ∃ u, d.types.get? r.name = some (.object u)
  | .connection kind element, ref => ∃ r, Build.elementRecord? s element = some r ∧
      ref = .named (r.name ++ "Connection") ∧
      (∃ u, d.types.get? (r.name ++ "Connection") = some (.object u)) ∧
      ∀ defined, Entries.get? d.connectionFields (r.name ++ "Connection") = some defined →
        defined = Build.extraNames s kind
  | .named name, ref => ref = .named name ∧ ((∃ t, d.types.get? name = some t ∧ t.isOutput = true) ∨
      d.types.get? name = none ∧ s.interface? name = none ∧ s.record? name = none ∧
        Build.isMarker name = true ∧ ∃ u, d.types.get? "Connection" = some (.interface u))

namespace Draft

variable {s : Setting} {d d' : Draft} {ref : TypeRef} {t : HostType}

/-- No marker has the name of an input type, for their last letters differ. -/
theorem marker_ne_input {name base : String} (h : Build.isMarker name = true) : name ≠ base ++ "Input" := by
  intro he
  have hl : name.toList.getLast? = some 't' := by simp [he]
  simp only [Build.isMarker, Bool.or_eq_true, beq_iff_eq] at h
  rcases h with (rfl | rfl) | rfl <;> exact absurd hl (by decide)

/-- A marker that was registered since is no input type, for those have other names. -/
theorem Grows.isOutput_of_marker (h : d.Grows d') {name : String} {u : WireType}
    (hn : d.types.get? name = none) (hm : Build.isMarker name = true)
    (hu : d'.types.get? name = some u) : u.isOutput = true := by
  cases u with
  | inputObject u =>
    obtain ⟨u', hu'⟩ | ⟨base, hb⟩ := h.inputs hu
    · cases hn.symm.trans hu'
    · exact absurd hb (marker_ne_input hm)
  | _ => rfl

/-- What is settled stays so. -/
theorem Settles.mono (h : d.Grows d') (hs : d.Settles s t ref) : d'.Settles s t ref := by
  induction t generalizing ref with
  | scalar hostName =>
    obtain ⟨t, ht, rfl, u, hu⟩ := hs
    exact ⟨t, ht, rfl, u, h.types hu⟩
  | enum key =>
    obtain ⟨e, he, rfl, u, hu⟩ := hs
    exact ⟨e, he, rfl, u, h.types hu⟩
  | list element ih =>
    obtain ⟨inner, hi, rfl⟩ := hs
    exact ⟨inner, ih hi, rfl⟩
  | optional inner ih => exact ih hs
  | record key =>
    obtain ⟨r, hr, rfl, u, hu⟩ := hs
    exact ⟨r, hr, rfl, u, h.types hu⟩
  | connection kind element =>
    obtain ⟨r, hr, rfl, ⟨u, hu⟩, hd⟩ := hs
    refine ⟨r, hr, rfl, ⟨u, h.types hu⟩, fun defined hdef => hd defined ?_⟩
    rwa [h.notes (by simp [hu])] at hdef
  | named name =>
    obtain ⟨rfl, ⟨t, ht, hk⟩ | ⟨hn, hi, hr, hm, u, hu⟩⟩ := hs
    · exact ⟨rfl, .inl ⟨t, h.types ht, hk⟩⟩
    · refine ⟨rfl, ?_⟩
      cases ht : d'.types.get? name with
      | none => exact .inr ⟨rfl, hi, hr, hm, u, h.types hu⟩
      | some t => exact .inl ⟨t, rfl, h.isOutput_of_marker hn hm ht⟩

end Draft

namespace Build

variable {s : Setting} {w : Walker} {d d' : Draft} {ref : TypeRef}

/-- A connection type that a step has found or registered keeps the extra fields of its kind. -/
theorem notes_of_gives (hw : w.Grows) {kind : String} {element : HostType} {r : Record}
    (hr : elementRecord? s element = some r) (h : (connection s w kind element).Gives d ref d')
    (defined : List String)
    (hd : Entries.get? d'.connectionFields (r.name ++ "Connection") = some defined) :
    defined = extraNames s kind := by
  obtain ⟨r', hr', -, hcase⟩ := gives_connection h
  cases hr.symm.trans hr'
  rcases hcase with ⟨-, hnoted, rfl⟩ |
    ⟨-, -, d1, node, d2, cursor, d3, d4, fields, d5, -, hnode, hc, he, hf, rfl⟩
  · exact hnoted defined hd
  · have h0 := Draft.get?_add_ne_none
      (d1.noteConnection (r.name ++ "Connection") (extraNames s kind)) (connectionType s kind r [])
    have hg := (grows_parts hw hnode hc he hf).notes h0
    simp only [connectionType, WireType.name] at hg
    rw [Draft.connectionFields_replace, hg] at hd
    change Entries.get? (Entries.insert d1.connectionFields _ _) _ = _ at hd
    rw [Entries.get?_insert, if_pos rfl] at hd
    exact (Option.some.inj hd).symm

/-! A builder that finds its type answers at once. -/

theorem repeats_scalar {hostName : String} {t u : ScalarType} (ht : s.scalar? hostName = some t)
    (hu : d.types.get? t.wireName = some (.scalar u)) :
    (scalar s hostName).Gives d (.named t.wireName) d := by
  unfold scalar
  rw [ht]
  exact gives_bind.mpr ⟨_, d, gives_type?.mpr ⟨hu.symm, rfl⟩, gives_pure.mpr ⟨rfl, rfl⟩⟩

theorem repeats_enum {e u : EnumType} (hu : d.types.get? e.name = some (.enum u)) :
    (enum e).Gives d (.named e.name) d :=
  gives_bind.mpr ⟨_, d, gives_type?.mpr ⟨hu.symm, rfl⟩, gives_pure.mpr ⟨rfl, rfl⟩⟩

theorem repeats_objectNamed {name : String} {interfaces : List String} {r : Record} {u : ObjectType}
    (hu : d.types.get? name = some (.object u)) :
    (objectNamed s w name interfaces r).Gives d (.named name) d :=
  gives_bind.mpr ⟨_, d, gives_type?.mpr ⟨hu.symm, rfl⟩, gives_pure.mpr ⟨rfl, rfl⟩⟩

theorem repeats_connection {kind : String} {element : HostType} {r : Record} {u : ObjectType}
    (hr : elementRecord? s element = some r)
    (hu : d.types.get? (r.name ++ "Connection") = some (.object u))
    (hd : ∀ defined, Entries.get? d.connectionFields (r.name ++ "Connection") = some defined →
      defined = extraNames s kind) :
    (connection s w kind element).Gives d (.named (r.name ++ "Connection")) d := by
  unfold connection
  rw [hr]
  refine gives_bind.mpr ⟨_, d, gives_type?.mpr ⟨hu.symm, rfl⟩, ?_⟩
  refine gives_bind.mpr ⟨d, d, gives_get.mpr ⟨rfl, rfl⟩, ?_⟩
  split
  · rename_i defined hdef
    split
    · exact gives_pure.mpr ⟨rfl, rfl⟩
    · rename_i hne
      exact absurd (hd defined hdef) hne
  · exact gives_pure.mpr ⟨rfl, rfl⟩

theorem repeats_namedOutput {name : String} {u : WireType} (hu : d.types.get? name = some u)
    (hk : u.isOutput = true) : (namedOutput s w name).Gives d (.named name) d := by
  refine gives_bind.mpr ⟨_, d, gives_type?.mpr ⟨hu.symm, rfl⟩, ?_⟩
  cases u with
  | inputObject u => exact absurd hk Bool.false_ne_true
  | _ => exact gives_pure.mpr ⟨rfl, rfl⟩

theorem repeats_marker {name : String} {u : InterfaceType} (hn : d.types.get? name = none)
    (hi : s.interface? name = none) (hr : s.record? name = none) (hm : isMarker name = true)
    (hu : d.types.get? "Connection" = some (.interface u)) :
    (namedOutput s w name).Gives d (.named name) d := by
  refine gives_bind.mpr ⟨_, d, gives_type?.mpr ⟨hn.symm, rfl⟩, ?_⟩
  rw [hi, hr]
  simp only [hm, if_true]
  refine gives_bind.mpr ⟨(), d, gives_bind.mpr ⟨_, d, gives_type?.mpr ⟨hu.symm, rfl⟩, ?_⟩, ?_⟩
  · exact gives_pure.mpr ⟨rfl, rfl⟩
  · exact gives_pure.mpr ⟨rfl, rfl⟩

end Build

namespace Walker

variable {s : Setting} {d d' : Draft} {ref : TypeRef} {t : HostType} {steps : Nat}

/-- A host type that was mapped is settled, if its connection type is a connection type. -/
theorem settles_of_gives (h : ((within s steps).output t).Gives d ref d')
    (hc : ∀ name, t.connectionName? s = some name → d'.types.Holds WireType.isObject name) :
    d'.Settles s t ref ∧ t.wraps < steps := by
  induction t generalizing steps d ref d' with
  | list element ih =>
    obtain ⟨steps, rfl⟩ := output_succ h
    obtain ⟨inner, hi, rfl⟩ := gives_output_list h
    obtain ⟨hs, hlt⟩ := ih hi hc
    exact ⟨⟨inner, hs, rfl⟩, Nat.succ_lt_succ hlt⟩
  | optional inner ih =>
    obtain ⟨steps, rfl⟩ := output_succ h
    obtain ⟨hs, hlt⟩ := ih h hc
    exact ⟨hs, Nat.succ_lt_succ hlt⟩
  | scalar hostName =>
    obtain ⟨steps, rfl⟩ := output_succ h
    obtain ⟨t, ht, rfl, -⟩ := Build.gives_scalar h
    obtain ⟨u, hu, hk⟩ := Build.holds_scalar h
    cases u with
    | scalar u => exact ⟨⟨t, ht, rfl, u, hu⟩, Nat.succ_pos _⟩
    | _ => exact absurd hk Bool.false_ne_true
  | enum key =>
    obtain ⟨steps, rfl⟩ := output_succ h
    obtain ⟨e, he, h⟩ := gives_output_enum h
    obtain ⟨rfl, -⟩ := Build.gives_enum h
    obtain ⟨u, hu, hk⟩ := Build.holds_enum h
    cases u with
    | enum u => exact ⟨⟨e, he, rfl, u, hu⟩, Nat.succ_pos _⟩
    | _ => exact absurd hk Bool.false_ne_true
  | record key =>
    obtain ⟨steps, rfl⟩ := output_succ h
    obtain ⟨r, hr, h⟩ := gives_output_record h
    obtain ⟨rfl, -⟩ := Build.gives_objectNamed h
    obtain ⟨u, hu⟩ := (Build.holds_objectNamed (grows_within s steps) h).object
    exact ⟨⟨r, hr, rfl, u, hu⟩, Nat.succ_pos _⟩
  | connection kind element =>
    obtain ⟨steps, rfl⟩ := output_succ h
    obtain ⟨r, hr, rfl, -⟩ := Build.gives_connection h
    obtain ⟨u, hu⟩ := (hc _ (HostType.connectionName?_connection hr)).object
    have hnote := Build.notes_of_gives (grows_within s steps) hr h
    exact ⟨⟨r, hr, rfl, ⟨u, hu⟩, hnote⟩, Nat.succ_pos _⟩
  | named name =>
    obtain ⟨steps, rfl⟩ := output_succ h
    refine ⟨?_, Nat.succ_pos _⟩
    have hw := grows_within s steps
    obtain ⟨⟨t, ht, hk⟩, rfl, rfl⟩ | ⟨hn, ⟨r, hr, hi⟩ | ⟨-, r, hr, ho⟩ | ⟨hi, hr, hm, rfl, hmark⟩⟩ :=
      Build.gives_namedOutput h
    · exact ⟨rfl, .inl ⟨t, ht, hk⟩⟩
    · obtain ⟨rfl, -⟩ := Build.gives_interface hi
      have hh := (Build.holds_interface hw hi).imp fun _ => WireType.isOutput_of_isInterface
      rw [Setting.name_of_interface? hr] at hh ⊢
      exact ⟨rfl, .inl hh⟩
    · obtain ⟨rfl, -⟩ := Build.gives_objectNamed ho
      have hh := (Build.holds_objectNamed hw ho).imp fun _ => WireType.isOutput_of_isObject
      rw [Setting.name_of_record? hr] at hh ⊢
      exact ⟨rfl, .inl hh⟩
    · refine ⟨rfl, ?_⟩
      have hg := (Build.grows_markers s).of_gives hmark
      cases ht : d'.types.get? name with
      | some t => exact .inl ⟨t, rfl, hg.isOutput_of_marker hn hm ht⟩
      | none =>
        obtain ⟨u, hu⟩ := (Build.holds_markers hmark).interface
        exact .inr ⟨rfl, hi, hr, hm, u, hu⟩

/-- What is settled maps to the same reference again, and the draft stays as it is. -/
theorem gives_of_settles (hs : d.Settles s t ref) (hlt : t.wraps < steps) :
    ((within s steps).output t).Gives d ref d := by
  induction t generalizing steps ref with
  | list element ih =>
    obtain ⟨inner, hi, rfl⟩ := hs
    cases steps with
    | zero => exact absurd hlt (Nat.not_lt_zero _)
    | succ steps =>
      have hrest := ih hi (Nat.lt_of_succ_lt_succ hlt)
      exact Build.gives_bind.mpr ⟨inner, d, hrest, Build.gives_pure.mpr ⟨rfl, rfl⟩⟩
  | optional inner ih =>
    cases steps with
    | zero => exact absurd hlt (Nat.not_lt_zero _)
    | succ steps => exact ih hs (Nat.lt_of_succ_lt_succ hlt)
  | scalar hostName =>
    obtain ⟨steps, rfl⟩ := Nat.exists_eq_succ_of_ne_zero (Nat.ne_of_gt hlt)
    obtain ⟨t, ht, rfl, u, hu⟩ := hs
    exact Build.repeats_scalar ht hu
  | enum key =>
    obtain ⟨steps, rfl⟩ := Nat.exists_eq_succ_of_ne_zero (Nat.ne_of_gt hlt)
    obtain ⟨e, he, rfl, u, hu⟩ := hs
    simp only [within, step, he]
    exact Build.repeats_enum hu
  | record key =>
    obtain ⟨steps, rfl⟩ := Nat.exists_eq_succ_of_ne_zero (Nat.ne_of_gt hlt)
    obtain ⟨r, hr, rfl, u, hu⟩ := hs
    simp only [within, step, hr]
    exact Build.repeats_objectNamed hu
  | connection kind element =>
    obtain ⟨steps, rfl⟩ := Nat.exists_eq_succ_of_ne_zero (Nat.ne_of_gt hlt)
    obtain ⟨r, hr, rfl, ⟨u, hu⟩, hd⟩ := hs
    exact Build.repeats_connection hr hu hd
  | named name =>
    obtain ⟨steps, rfl⟩ := Nat.exists_eq_succ_of_ne_zero (Nat.ne_of_gt hlt)
    obtain ⟨rfl, ⟨t, ht, hk⟩ | ⟨hn, hi, hr, hm, u, hu⟩⟩ := hs
    · exact Build.repeats_namedOutput ht hk
    · exact Build.repeats_marker hn hi hr hm hu

end Walker

/-! Connections that are displaced. -/

/-- The host scalars that the types of paging are made of. -/
def Build.pagingScalars : List String := ["ID", "String", "bool"]

/-- The connection type of a host type has a free name, but the types of paging are yet to be
registered, and one of their scalars has that name on the wire. -/
def Draft.Displaces (s : Setting) (d : Draft) (t : HostType) : Prop :=
  ∃ name, t.connectionName? s = some name ∧ d.types.get? name = none ∧
    ¬ d.types.Holds WireType.isInterface "Connection" ∧
    ∃ hostName ∈ Build.pagingScalars, (s.scalar? hostName).map ScalarType.wireName = some name

namespace Build

variable {s : Setting} {w : Walker} {d d' : Draft} {ref : TypeRef} {name : String}

/-- A scalar takes a free name exactly if it is its own. -/
theorem free_or_scalar {hostName : String} (h : (scalar s hostName).Gives d ref d')
    (hn : d.types.get? name = none) :
    d'.types.get? name = none ∧ (s.scalar? hostName).map ScalarType.wireName ≠ some name ∨
      (∃ u, d'.types.get? name = some (.scalar u)) ∧
        (s.scalar? hostName).map ScalarType.wireName = some name := by
  obtain ⟨t, ht, -, ⟨⟨u, hu⟩, rfl⟩ | ⟨hfree, rfl⟩⟩ := gives_scalar h
  · refine .inl ⟨hn, ?_⟩
    rw [ht]
    rintro ⟨⟩
    cases hn.symm.trans hu
  · rw [ht]
    by_cases hname : (WireType.scalar t).name = name
    · subst hname
      exact .inr ⟨⟨t, Draft.get?_add_self hfree⟩, rfl⟩
    · exact .inl ⟨(Draft.get?_add_of_ne hname).trans hn, fun he => hname (Option.some.inj he)⟩

theorem get?_addAll {ts : List WireType} {us : List Unit} (h : Steps addUnlessPresent d ts us d')
    (hts : ∀ t ∈ ts, t.name ≠ name) : d'.types.get? name = d.types.get? name := by
  induction h with
  | nil => rfl
  | cons h hrest ih =>
    rw [List.forall_mem_cons] at hts
    rw [ih hts.2]
    obtain ⟨e, -, -, rfl⟩ | ⟨-, rfl⟩ := gives_addUnlessPresent h
    · rfl
    · exact Draft.get?_add_of_ne hts.1

/-- The types of paging take a free name that is none of their own exactly if one of their scalars
has it, and then it is a scalar that has it. -/
theorem free_or_displaced {u : Unit} (h : (markers s).Gives d u d') (hn : d.types.get? name = none)
    (hc : ¬ d.types.Holds WireType.isInterface "Connection")
    (hname : name ≠ "PageInfo" ∧ name ≠ "Node" ∧ name ≠ "Edge" ∧ name ≠ "Connection") :
    d'.types.get? name = none ∧
        (∀ hostName ∈ pagingScalars, (s.scalar? hostName).map ScalarType.wireName ≠ some name) ∨
      (∃ u, d'.types.get? name = some (.scalar u)) ∧
        ∃ hostName ∈ pagingScalars, (s.scalar? hostName).map ScalarType.wireName = some name := by
  obtain ⟨⟨t, ht⟩, -⟩ | ⟨-, id, string, boolean, d1, d2, d3, us, h1, h2, h3, hs⟩ := gives_markers h
  · exact absurd ⟨_, ht, rfl⟩ hc
  · have hrest : d'.types.get? name = d3.types.get? name := by
      refine get?_addAll hs ?_
      simp only [markerTypes, List.forall_mem_cons, WireType.name, pageInfoType]
      exact ⟨hname.1.symm, hname.2.1.symm, hname.2.2.1.symm, hname.2.2.2.symm, List.forall_mem_nil _⟩
    have g2 := (grows_scalar s _).of_gives h2
    have g3 := (grows_scalar s _).of_gives h3
    rw [hrest]
    simp only [pagingScalars, List.forall_mem_cons]
    rcases free_or_scalar h1 hn with ⟨hn1, e1⟩ | ⟨⟨u, hu⟩, e1⟩
    · rcases free_or_scalar h2 hn1 with ⟨hn2, e2⟩ | ⟨⟨u, hu⟩, e2⟩
      · rcases free_or_scalar h3 hn2 with ⟨hn3, e3⟩ | ⟨hu, e3⟩
        · exact .inl ⟨hn3, e1, e2, e3, List.forall_mem_nil _⟩
        · exact .inr ⟨hu, "bool", by decide, e3⟩
      · exact .inr ⟨⟨u, g3.types hu⟩, "String", by decide, e2⟩
    · exact .inr ⟨⟨u, g3.types (g2.types hu)⟩, "ID", by decide, e1⟩

theorem append_connection_ne (base : String) :
    base ++ "Connection" ≠ "PageInfo" ∧ base ++ "Connection" ≠ "Node" ∧ base ++ "Connection" ≠ "Edge" := by
  have hl : (base ++ "Connection").toList.getLast? = some 'n' := by simp
  refine ⟨?_, ?_, ?_⟩ <;> exact fun he => absurd (he ▸ hl) (by decide)

/-- A node type cannot stand under the name of the interface of nodes. -/
theorem base_ne_empty {base : String} {interfaces : List String} {r : Record}
    (hi : d.types.Holds WireType.isInterface "Node")
    (h : (objectNamed s w (base ++ "Node") interfaces r).Gives d ref d') :
    base ++ "Connection" ≠ "Connection" := by
  intro he
  obtain rfl : base = "" := by simpa using congrArg String.toList he
  obtain ⟨t, ht, hk⟩ := hi
  obtain ⟨-, ⟨⟨u, hu⟩, -⟩ | ⟨hn, -⟩⟩ := gives_objectNamed h
  · cases ht.symm.trans hu
    exact absurd hk Bool.false_ne_true
  · cases ht.symm.trans hn

/-- A connection type that gave way to a scalar is none; any other is registered in the end. -/
theorem holds_connection_iff (hw : w.Grows) {kind : String} {element : HostType} {r : Record}
    (hr : elementRecord? s element = some r) (h : (connection s w kind element).Gives d ref d') :
    d'.types.Holds WireType.isObject (r.name ++ "Connection") ↔
      ¬ d.Displaces s (.connection kind element) := by
  have hname : (HostType.connection kind element).connectionName? s = some (r.name ++ "Connection") :=
    HostType.connectionName?_connection hr
  obtain ⟨r', hr', -, hcase⟩ := gives_connection h
  cases hr.symm.trans hr'
  rcases hcase with ⟨⟨t, ht⟩, -, rfl⟩ |
    ⟨hn, -, d1, node, d2, cursor, d3, d4, fields, d5, hm, hnode, hc, he, hf, rfl⟩
  · refine iff_of_true ⟨_, ht, rfl⟩ ?_
    rintro ⟨name, hcn, hfree, -⟩
    cases hname.symm.trans hcn
    cases ht.symm.trans hfree
  · have hg := grows_parts hw hnode hc he hf
    have hfree (h1 : d1.types.get? (r.name ++ "Connection") = none) :
        (d5.replace (connectionType s kind r (connectionHead s r ++ fields))).types.Holds
          WireType.isObject (r.name ++ "Connection") :=
      ⟨_, Draft.get?_completed hg h1 rfl rfl, rfl⟩
    obtain ⟨hconn, rfl⟩ | ⟨hconn, hmarked⟩ := marked_of_gives hm
    · refine iff_of_true (hfree hn) ?_
      rintro ⟨-, -, -, hno, -⟩
      exact hno hconn
    · have hadd := (d1.noteConnection (r.name ++ "Connection") (extraNames s kind)).grows_add
        (show (connectionType s kind r []).NamedByKind from trivial)
      have hne := base_ne_empty (hadd.holds hmarked.node) hnode
      obtain ⟨hpage, hnodes, hedges⟩ := append_connection_ne r.name
      obtain ⟨h1, hno⟩ | ⟨⟨u, hu⟩, hostName, hmem, hwire⟩ :=
        free_or_displaced hm hn hconn ⟨hpage, hnodes, hedges, hne⟩
      · refine iff_of_true (hfree h1) ?_
        rintro ⟨name, hcn, -, -, hostName, hmem, hwire⟩
        cases hname.symm.trans hcn
        exact hno hostName hmem hwire
      · refine iff_of_false ?_ (not_not_intro ⟨_, hname, hn, hconn, hostName, hmem, hwire⟩)
        rintro ⟨t, ht, hk⟩
        have hkind := Draft.kind_replace (d := d5)
          (t := connectionType s kind r (connectionHead s r ++ fields)) (r.name ++ "Connection")
        rw [ht, hg.types (Draft.get?_add_of_some hu), Option.map_some, Option.map_some] at hkind
        cases t with
        | object t => exact absurd hkind (by simp [WireType.kind])
        | _ => exact absurd hk Bool.false_ne_true

end Build

namespace Walker

variable {s : Setting} {d d' : Draft} {ref : TypeRef} {t : HostType} {steps : Nat}

/-- A host type with a connection type maps as the connection at its core does. -/
theorem connection_of_gives {name : String} (hname : t.connectionName? s = some name) :
    ∃ kind element r, Build.elementRecord? s element = some r ∧ name = r.name ++ "Connection" ∧
      ∀ {steps d ref d'}, ((within s steps).output t).Gives d ref d' →
        ∃ below ref', (Build.connection s (within s below) kind element).Gives d ref' d' := by
  induction t with
  | list element ih =>
    obtain ⟨kind, core, r, hr, he, hcore⟩ := ih hname
    refine ⟨kind, core, r, hr, he, fun {steps d ref d'} h => ?_⟩
    obtain ⟨steps, rfl⟩ := output_succ h
    obtain ⟨inner, hi, -⟩ := gives_output_list h
    exact hcore hi
  | optional inner ih =>
    obtain ⟨kind, core, r, hr, he, hcore⟩ := ih hname
    refine ⟨kind, core, r, hr, he, fun {steps d ref d'} h => ?_⟩
    obtain ⟨steps, rfl⟩ := output_succ h
    exact hcore h
  | connection kind element =>
    obtain ⟨r, hr, rfl⟩ := Option.map_eq_some_iff.mp hname
    refine ⟨kind, element, r, hr, rfl, fun {steps d ref d'} h => ?_⟩
    obtain ⟨steps, rfl⟩ := output_succ h
    exact ⟨steps, ref, h⟩
  | _ => cases hname

/-- Once a host type is mapped, its connection type is registered unless it was displaced. -/
theorem holds_iff_of_gives {name : String} (h : ((within s steps).output t).Gives d ref d')
    (hname : t.connectionName? s = some name) :
    d'.types.Holds WireType.isObject name ↔ ¬ d.Displaces s t := by
  obtain ⟨kind, element, r, hr, rfl, hcore⟩ := connection_of_gives hname
  obtain ⟨below, ref', hc⟩ := hcore h
  rw [Build.holds_connection_iff (grows_within s below) hr hc]
  rw [Draft.Displaces, Draft.Displaces, hname, HostType.connectionName?_connection hr]

/-- Once a host type is mapped, it is not displaced any more. -/
theorem not_displaces_of_gives (h : ((within s steps).output t).Gives d ref d') : ¬ d'.Displaces s t := by
  rintro ⟨name, hname, hfree, -⟩
  obtain ⟨kind, element, r, hr, rfl, hcore⟩ := connection_of_gives hname
  obtain ⟨below, ref', hc⟩ := hcore h
  exact Build.get?_connection_ne_none (grows_within s below) hr hc hfree

/-- Mapping a host type again, after any calls, gives the same reference and leaves the draft as it
is, unless the connection type of the host type was displaced when it was mapped first. -/
theorem output_repeats_iff (h : ((within s steps).output t).Gives d ref d') :
    (∀ calls more, steps ≤ more →
      ((within s more).output t).Gives (d'.afterCalls s calls) ref (d'.afterCalls s calls)) ↔
      ¬ d.Displaces s t := by
  constructor
  · intro hrep hdisp
    have hagain : ((within s steps).output t).Gives d' ref d' := hrep [] steps (Nat.le_refl _)
    obtain ⟨name, hname, -⟩ := id hdisp
    have hobject := (holds_iff_of_gives hagain hname).mpr (not_displaces_of_gives h)
    exact (holds_iff_of_gives h hname).mp hobject hdisp
  · intro hnot calls more hmore
    obtain ⟨hs, hlt⟩ := settles_of_gives h fun name hname => (holds_iff_of_gives h hname).mpr hnot
    exact gives_of_settles (hs.mono (d'.grows_afterCalls s calls)) (Nat.lt_of_lt_of_le hlt hmore)

/-- The walk over pages of books. -/
def mapPages (s : Setting) (steps : Nat) : Build TypeRef := (within s steps).output bookPages

/-- The draft that the first walk over pages of books leaves. -/
def shelved (s : Setting) : Draft := (mapPages s 9).after {}

theorem bookPages_repeat :
    (mapPages (bookshop []) 9).Gives {} (.named "BookConnection") (shelved (bookshop [])) ∧
      ∀ calls more, 9 ≤ more → (mapPages (bookshop []) more).Gives
        ((shelved (bookshop [])).afterCalls (bookshop []) calls) (.named "BookConnection")
        ((shelved (bookshop [])).afterCalls (bookshop []) calls) := by
  have h : (mapPages (bookshop []) 9).Gives {} (.named "BookConnection") (shelved (bookshop [])) := by rfl
  refine ⟨h, (output_repeats_iff h).mpr ?_⟩
  rintro ⟨name, hname, -, -, hostName, hmem, hwire⟩
  cases hname
  simp only [Build.pagingScalars, List.mem_cons, List.not_mem_nil, or_false] at hmem
  rcases hmem with rfl | rfl | rfl <;> exact absurd hwire (by decide)

/-- Truth values under the name of the connection type of books. -/
def bookTruth : ScalarType := ⟨"bool", "BookConnection", none, false, .boolean⟩

/-- With a scalar of paging under that name, pages of books map once and never again. -/
theorem displaced_bookPages_fail :
    (mapPages (bookshop [bookTruth]) 9).Gives {} (.named "BookConnection") (shelved (bookshop [bookTruth])) ∧
      ∀ more, (mapPages (bookshop [bookTruth]) (more + 1)).outcome (shelved (bookshop [bookTruth])) =
        (.error (.nameConflict "BookConnection"), shelved (bookshop [bookTruth])) :=
  ⟨by rfl, fun more => by rfl⟩

end Walker

end RecordGraph
