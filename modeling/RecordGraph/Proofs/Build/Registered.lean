import RecordGraph.Proofs.Build.Growth
/-! What is registered once a builder has succeeded: the type it answers for, complete if the builder
was the one to register it, and after the types of paging all four of them. -/

namespace RecordGraph

/-- Some type with a property is registered under a name. -/
def Registry.Holds (r : Registry WireType) (p : WireType → Bool) (name : String) : Prop :=
  ∃ t, r.get? name = some t ∧ p t = true

/-- Each name keeps the kind of its type. -/
def Registry.Keeps (r r' : Registry WireType) : Prop :=
  ∀ name t, r.get? name = some t → ∃ t', r'.get? name = some t' ∧ t'.kind = t.kind

namespace WireType

theorem isInterface_of_kind {t : WireType} (h : t.kind = "interface") : t.isInterface = true := by
  cases t <;> first | rfl | exact absurd h (by simp [kind])

theorem isObject_of_kind {t : WireType} (h : t.kind = "object") : t.isObject = true := by
  cases t <;> first | rfl | exact absurd h (by simp [kind])

theorem isOutput_of_isObject {t : WireType} (h : t.isObject = true) : t.isOutput = true := by
  cases t <;> first | rfl | exact absurd h Bool.false_ne_true

theorem isOutput_of_isInterface {t : WireType} (h : t.isInterface = true) : t.isOutput = true := by
  cases t <;> first | rfl | exact absurd h Bool.false_ne_true

variable {t u : WireType}

theorem isOutput_congr (h : t.kind = u.kind) : t.isOutput = u.isOutput := by
  cases t <;> cases u <;> first | rfl | exact absurd h (by simp [kind])

theorem isInput_congr (h : t.kind = u.kind) : t.isInput = u.isInput := by
  cases t <;> cases u <;> first | rfl | exact absurd h (by simp [kind])

theorem isObject_congr (h : t.kind = u.kind) : t.isObject = u.isObject := by
  cases t <;> cases u <;> first | rfl | exact absurd h (by simp [kind])

theorem isInterface_congr (h : t.kind = u.kind) : t.isInterface = u.isInterface := by
  cases t <;> cases u <;> first | rfl | exact absurd h (by simp [kind])

end WireType

namespace Setting

variable {s : Setting} {name : String} {r : Record}

theorem name_of_interface? (h : s.interface? name = some r) : r.name = name := by
  simpa using List.find?_some h

theorem mem_of_interface? (h : s.interface? name = some r) : r ∈ s.options.interfaces := by
  simpa using List.mem_of_find?_eq_some h

theorem name_of_record? (h : s.record? name = some r) : r.name = name := by
  simpa using List.find?_some h

end Setting

namespace Registry

variable {r r' : Registry WireType} {p q : WireType → Bool} {name : String}

theorem Holds.imp (h : r.Holds p name) (hpq : ∀ t, p t = true → q t = true) : r.Holds q name := by
  obtain ⟨t, ht, hp⟩ := h
  exact ⟨t, ht, hpq t hp⟩

theorem Holds.object (h : r.Holds WireType.isObject name) : ∃ t, r.get? name = some (.object t) := by
  obtain ⟨t, ht, hk⟩ := h
  cases t with
  | object t => exact ⟨t, ht⟩
  | _ => exact absurd hk Bool.false_ne_true

theorem Holds.interface (h : r.Holds WireType.isInterface name) : ∃ t, r.get? name = some (.interface t) := by
  obtain ⟨t, ht, hk⟩ := h
  cases t with
  | interface t => exact ⟨t, ht⟩
  | _ => exact absurd hk Bool.false_ne_true

theorem Keeps.refl (r : Registry WireType) : r.Keeps r := fun _ t ht => ⟨t, ht, rfl⟩

theorem Keeps.trans {r₁ r₂ r₃ : Registry WireType} (h1 : r₁.Keeps r₂) (h2 : r₂.Keeps r₃) : r₁.Keeps r₃ := by
  intro name t ht
  obtain ⟨t', ht', hk⟩ := h1 name t ht
  obtain ⟨t'', ht'', hk'⟩ := h2 name t' ht'
  exact ⟨t'', ht'', hk'.trans hk⟩

theorem Keeps.holds (h : r.Keeps r') (hp : ∀ {t u : WireType}, t.kind = u.kind → p t = p u)
    (hr : r.Holds p name) : r'.Holds p name := by
  obtain ⟨t, ht, hpt⟩ := hr
  obtain ⟨t', ht', hk⟩ := h name t ht
  exact ⟨t', ht', (hp hk).trans hpt⟩

end Registry

namespace Draft

variable {d d' : Draft} {p : WireType → Bool} {name : String}

theorem Grows.holds (h : d.Grows d') (hp : d.types.Holds p name) : d'.types.Holds p name := by
  obtain ⟨t, ht, hpt⟩ := hp
  exact ⟨t, h.types ht, hpt⟩

theorem Grows.keeps (h : d.Grows d') : d.types.Keeps d'.types :=
  fun _ t ht => ⟨t, h.types ht, rfl⟩

theorem keeps_replace (d : Draft) (t : WireType) : d.types.Keeps (d.replace t).types := by
  intro name u hu
  have hk := kind_replace (d := d) (t := t) name
  rwa [hu, Option.map_some, Option.map_eq_some_iff] at hk

theorem replace_keeps (d : Draft) (t : WireType) : (d.replace t).types.Keeps d.types := by
  intro name u hu
  have hk := kind_replace (d := d) (t := t) name
  rwa [hu, Option.map_some, eq_comm, Option.map_eq_some_iff] at hk

/-- The type that a builder completes is the one registered at the end. -/
theorem get?_completed {t u : WireType} (h : (d.add u).Grows d') (hn : d.types.get? u.name = none)
    (hname : u.name = t.name) (hk : u.kind = t.kind) : (d'.replace t).types.get? t.name = some t := by
  refine get?_replace_self (u := u) ?_ hk
  rw [← hname]
  exact h.types (get?_add_self hn)

/-- The types of paging are all registered. -/
structure Marked (d : Draft) : Prop where
  pageInfo : d.types.Holds WireType.isObject "PageInfo"
  node : d.types.Holds WireType.isInterface "Node"
  edge : d.types.Holds WireType.isInterface "Edge"
  connection : d.types.Holds WireType.isInterface "Connection"

theorem Marked.noteConnection {extra : List String} (h : d.Marked) : (d.noteConnection name extra).Marked :=
  ⟨h.pageInfo, h.node, h.edge, h.connection⟩

theorem Grows.marked (h : d.Grows d') (hm : d.Marked) : d'.Marked :=
  ⟨h.holds hm.pageInfo, h.holds hm.node, h.holds hm.edge, h.holds hm.connection⟩

end Draft

namespace Build

variable {α β : Type} {s : Setting} {w : Walker} {d d' : Draft} {ref : TypeRef}

theorem Steps.grows {x : α → Build β} {as : List α} {bs : List β} (h : Steps x d as bs d')
    (hx : ∀ a ∈ as, (x a).Grows) : d.Grows d' :=
  h.lift .refl (fun h1 h2 => h1.trans h2) fun a ha => (hx a ha).of_gives

theorem holds_scalar {hostName : String} (h : (scalar s hostName).Gives d ref d') :
    d'.types.Holds (fun t => t matches .scalar _) ref.base := by
  obtain ⟨t, -, rfl, ⟨⟨u, hu⟩, rfl⟩ | ⟨hn, rfl⟩⟩ := gives_scalar h
  · exact ⟨_, hu, rfl⟩
  · exact ⟨_, Draft.get?_add_self hn, rfl⟩

theorem holds_enum {e : EnumType} (h : (enum e).Gives d ref d') :
    d'.types.Holds (fun t => t matches .enum _) e.name := by
  obtain ⟨-, ⟨⟨u, hu⟩, rfl⟩ | ⟨hn, -, rfl⟩⟩ := gives_enum h
  · exact ⟨_, hu, rfl⟩
  · exact ⟨_, Draft.get?_add_self hn, rfl⟩

theorem holds_interface (hw : w.Grows) {r : Record} (h : (interface s w r).Gives d ref d') :
    d'.types.Holds WireType.isInterface r.name := by
  obtain ⟨-, ⟨⟨u, hu⟩, rfl⟩ | ⟨hn, fields, d1, hf, -, rfl⟩⟩ := gives_interface h
  · exact ⟨_, hu, rfl⟩
  · exact ⟨_, Draft.get?_completed ((grows_outputFields hw _ _).of_gives hf) hn rfl rfl, rfl⟩

theorem holds_objectNamed (hw : w.Grows) {name : String} {interfaces : List String} {r : Record}
    (h : (objectNamed s w name interfaces r).Gives d ref d') :
    d'.types.Holds WireType.isObject name := by
  obtain ⟨-, ⟨⟨u, hu⟩, rfl⟩ | ⟨hn, fields, d1, us, d2, hf, -, hs, rfl⟩⟩ := gives_objectNamed h
  · exact ⟨_, hu, rfl⟩
  · have hg := ((grows_outputFields hw _ _).of_gives hf).trans
      (hs.grows fun i _ => grows_ensureInterface hw i)
    exact ⟨_, Draft.get?_completed hg hn rfl rfl, rfl⟩

theorem holds_inputObject (hw : w.Grows) {r : Record} (h : (inputObject s w r).Gives d ref d') :
    d'.types.Holds (fun t => t matches .inputObject _) (r.name ++ "Input") := by
  obtain ⟨-, ⟨⟨u, hu⟩, rfl⟩ | ⟨hn, fields, d1, hf, -, rfl⟩⟩ := gives_inputObject h
  · exact ⟨_, hu, rfl⟩
  · exact ⟨_, Draft.get?_completed ((grows_inputFields hw _ _).of_gives hf) hn rfl rfl, rfl⟩

theorem holds_addUnlessPresent {t : WireType} {u : Unit} (h : (addUnlessPresent t).Gives d u d') :
    d'.types.Holds (fun e => e.kind = t.kind) t.name := by
  obtain ⟨e, he, hk, rfl⟩ | ⟨hn, rfl⟩ := gives_addUnlessPresent h
  · exact ⟨e, he, by simpa using hk⟩
  · exact ⟨t, Draft.get?_add_self hn, by simp⟩

theorem holds_addAll {ts : List WireType} {us : List Unit} (h : Steps addUnlessPresent d ts us d')
    (hts : ∀ t ∈ ts, t.NamedByKind) :
    ∀ t ∈ ts, d'.types.Holds (fun e => e.kind = t.kind) t.name := by
  induction h with
  | nil => exact List.forall_mem_nil _
  | cons h hrest ih =>
    rw [List.forall_mem_cons] at hts
    intro t ht
    rcases List.mem_cons.mp ht with rfl | ht
    · have hg := hrest.grows fun t ht => grows_addUnlessPresent (hts.2 t ht)
      exact hg.holds (holds_addUnlessPresent h)
    · exact ih hts.2 t ht

/-- After the types of paging, the interface of connections was there before or all of them are. -/
theorem marked_of_gives {u : Unit} (h : (markers s).Gives d u d') :
    d.types.Holds WireType.isInterface "Connection" ∧ d' = d ∨
      ¬ d.types.Holds WireType.isInterface "Connection" ∧ d'.Marked := by
  obtain ⟨⟨t, ht⟩, rfl⟩ | ⟨hno, id, string, boolean, d1, d2, d3, us, -, -, -, hs⟩ := gives_markers h
  · exact .inl ⟨⟨_, ht, rfl⟩, rfl⟩
  · have hnone : ¬ d.types.Holds WireType.isInterface "Connection" := by
      rintro ⟨t, ht, hk⟩
      cases t with
      | interface t => exact hno t ht
      | _ => exact absurd hk Bool.false_ne_true
    have hall := holds_addAll hs namedByKind_markerTypes
    simp only [markerTypes, List.forall_mem_cons, WireType.name] at hall
    obtain ⟨hp, hn, he, hc, -⟩ := hall
    refine .inr ⟨hnone, ?_⟩
    exact
      { pageInfo := hp.imp fun _ hk => WireType.isObject_of_kind (of_decide_eq_true hk)
        node := hn.imp fun _ hk => WireType.isInterface_of_kind (of_decide_eq_true hk)
        edge := he.imp fun _ hk => WireType.isInterface_of_kind (of_decide_eq_true hk)
        connection := hc.imp fun _ hk => WireType.isInterface_of_kind (of_decide_eq_true hk) }

theorem holds_markers {u : Unit} (h : (markers s).Gives d u d') :
    d'.types.Holds WireType.isInterface "Connection" := by
  obtain ⟨hc, rfl⟩ | ⟨-, hm⟩ := marked_of_gives h
  · exact hc
  · exact hm.connection

/-- The types around a connection type grow the draft that holds it unfinished. -/
theorem grows_parts (hw : w.Grows) {r : Record} {name type : String} {interfaces : List String}
    {extra : List Field} {node cursor : TypeRef} {fields : List WireField} {d₂ d₃ d₄ : Draft}
    (hnode : (objectNamed s w name interfaces r).Gives d node d₂)
    (hcursor : (scalar s "String").Gives d₂ cursor d₃)
    (hedge : (addUnlessPresent (.object (edgeType r cursor))).Gives d₃ () d₄)
    (hfields : (outputFields s w type extra).Gives d₄ fields d') : d.Grows d' :=
  have h : (addUnlessPresent (.object (edgeType r cursor))).Grows := grows_addUnlessPresent trivial
  ((grows_objectNamed hw _ _ _).of_gives hnode).trans (((grows_scalar s _).of_gives hcursor).trans
    ((h.of_gives hedge).trans ((grows_outputFields hw _ _).of_gives hfields)))

theorem get?_connection_ne_none (hw : w.Grows) {kind : String} {element : HostType} {r : Record}
    (hr : elementRecord? s element = some r) (h : (connection s w kind element).Gives d ref d') :
    d'.types.get? (r.name ++ "Connection") ≠ none := by
  obtain ⟨r', hr', -, hcase⟩ := gives_connection h
  cases hr.symm.trans hr'
  rcases hcase with ⟨⟨t, ht⟩, -, rfl⟩ |
    ⟨-, -, d1, node, d2, cursor, d3, d4, fields, d5, -, hnode, hc, he, hf, rfl⟩
  · simp [ht]
  · have h0 := Draft.get?_add_ne_none
      (d1.noteConnection (r.name ++ "Connection") (extraNames s kind)) (connectionType s kind r [])
    obtain ⟨t, ht⟩ := Option.ne_none_iff_exists'.mp h0
    have hg := (grows_parts hw hnode hc he hf).types ht
    exact Draft.get?_replace_ne_none (by simp only [connectionType, WireType.name] at hg; simp [hg])

end Build

/-- A catalogue of books beside some scalars of its own. -/
def bookshop (scalars : List ScalarType) : Setting :=
  { catalogue :=
      { records := [("Book", { name := "Book", fields := [{ name := "id", type := .scalar "ID" }] })] }
    options := { scalars := scalars } }

/-- Pages of books. -/
def bookPages : HostType := .connection "Connection" (.record "Book")

end RecordGraph
