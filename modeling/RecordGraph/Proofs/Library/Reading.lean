import RecordGraph.Library.Service
import RecordGraph.Proofs.Execute.Calm
import RecordGraph.Proofs.Registry
/-! Reading the library. Of the native handlers of the library one alone touches the store, and none of the
values that a query meets leads to it: books, authors and pages are plain data, and the handlers of authors and
of the query root give such data or ask for the other handlers. So whatever operation is no mutation leaves the
store as it is. -/

namespace RecordGraph.Library

/-! Values whose fields are answered without the store. -/

mutual

/-- A value whose fields are answered without touching the store. -/
inductive Still : Value → Prop
  | null : Still .null
  | bool (b : Bool) : Still (.bool b)
  | number (n : HostNumber) : Still (.number n)
  | string (text : String) : Still (.string text)
  | moment (m : Moment) : Still (.moment m)
  | decimal (d : Decimal) : Still (.decimal d)
  | member (enumName name : String) : Still (.member enumName name)
  | list {items : List Value} (hitems : ∀ v ∈ items, Still v) : Still (.list items)
  | mapping {entries : List (String × Value)} (hentries : ∀ e ∈ entries, Still e.2) : Still (.mapping entries)
  | source {name : String} {attributes : List (String × Value)} {resolve mutate message : List (String × Handler)}
      (hattributes : ∀ e ∈ attributes, Still e.2) (hresolve : ∀ e ∈ resolve, Quiet e.2) :
      Still (.source (.mk name attributes resolve mutate message))

/-- A handler that answers a field of such a value. -/
inductive Quiet : Handler → Prop
  | give {v : Value} (hv : Still v) : Quiet (.give v)
  | fail (message : String) : Quiet (.fail message)
  | native {name : String} (hname : name ≠ "create_books") : Quiet (.native name)

end

theorem still_list {items : List Value} : Still (.list items) ↔ ∀ v ∈ items, Still v :=
  ⟨fun h => by cases h; assumption, .list⟩

theorem still_mapping {entries : List (String × Value)} : Still (.mapping entries) ↔ ∀ e ∈ entries, Still e.2 :=
  ⟨fun h => by cases h; assumption, .mapping⟩

theorem still_get? {entries : List (String × Value)} {name : String} {v : Value}
    (h : ∀ e ∈ entries, Still e.2) (hv : Entries.get? entries name = some v) : Still v :=
  h _ (Entries.mem_of_get? hv)

theorem still_fiction : Still fiction := by
  simp only [fiction, still_mapping, List.forall_mem_cons, List.not_mem_nil, false_imp_iff, implies_true, and_true]
  exact ⟨.string _, .string _⟩

theorem still_bookEntries (id title authorId : String) : ∀ e ∈ bookEntries id title authorId, Still e.2 := by
  simp only [bookEntries, List.forall_mem_cons, List.not_mem_nil, false_imp_iff, implies_true, and_true]
  exact ⟨.string _, .string _, .string _, .number _⟩

theorem still_books : ∀ v ∈ books, Still v := by
  simp only [books, List.forall_mem_cons, List.not_mem_nil, false_imp_iff, implies_true, and_true, still_mapping,
    List.forall_mem_append]
  exact ⟨⟨still_bookEntries _ _ _, .decimal _, .moment _, still_fiction⟩, still_bookEntries _ _ _⟩

theorem still_booksOf (authorId : String) : ∀ v ∈ booksOf authorId, Still v :=
  fun v hv => still_books v (List.mem_of_mem_filter hv)

theorem still_author (a : AuthorEntry) : Still a.toValue := by
  refine .source ?_ ?_
  · simp only [List.forall_mem_append, List.forall_mem_cons, List.not_mem_nil, false_imp_iff, implies_true, and_true]
    refine ⟨⟨⟨.string _, .string _, .member _ _⟩, ?_⟩, .list (still_booksOf a.id)⟩
    unfold AuthorEntry.locationValue
    split
    · simp only [List.forall_mem_cons, List.not_mem_nil, false_imp_iff, implies_true, and_true, still_mapping]
      exact ⟨.number _, .number _⟩
    · exact List.forall_mem_nil _
  · simp only [List.forall_mem_cons, List.not_mem_nil, false_imp_iff, implies_true, and_true]
    exact .fail _

theorem still_authors : ∀ v ∈ authors.map AuthorEntry.toValue, Still v := by
  intro v hv
  obtain ⟨a, -, rfl⟩ := List.mem_map.mp hv
  exact still_author a

theorem still_authorEdges : Still authorEdges := by
  simp only [authorEdges, still_mapping, List.forall_mem_cons, List.not_mem_nil, false_imp_iff, implies_true,
    and_true, still_list, List.forall_mem_map]
  exact fun a _ => ⟨still_author a, .string _⟩

/-- Queries ask for the fields of such a value. -/
theorem still_rootValues {kind : OperationKind} (hk : kind ≠ .mutation) : Still (rootValues.get kind) := by
  cases kind with
  | mutation => exact absurd rfl hk
  | query =>
    refine .source ?_ ?_
    · simp only [List.forall_mem_cons, List.not_mem_nil, false_imp_iff, implies_true, and_true, still_list]
      exact still_fiction
    · simp only [List.forall_mem_cons, List.not_mem_nil, false_imp_iff, implies_true, and_true]
      exact ⟨.native (by decide), .give (.list still_authors), .native (by decide), .give (.list still_books),
        .give still_authorEdges⟩
  | subscription => exact .source (List.forall_mem_nil _) (List.forall_mem_nil _)

theorem still_page {elements : List Value} (h : ∀ v ∈ elements, Still v) (after : Option String)
    (first : Option Int64) : Still (Page.cut elements after first).toValue := by
  have hcursor (edge : Option (Nat × Value)) : Still (Page.cursor edge) := by
    cases edge with
    | none => exact .null
    | some edge => exact .string _
  simp only [Page.toValue, still_mapping, List.forall_mem_cons, List.not_mem_nil, false_imp_iff, implies_true,
    and_true, still_list, List.forall_mem_map]
  refine ⟨.number _, ⟨.bool _, .bool _, hcursor _, hcursor _⟩, fun edge hedge => ⟨?_, .string _⟩⟩
  obtain ⟨⟨v, i⟩, hv, rfl⟩ := List.mem_map.mp hedge
  have hmem := List.mem_of_mem_drop (List.mem_of_mem_take hv)
  rw [(List.mem_zipIdx' hmem).2]
  exact h _ (List.getElem_mem _)

/-! Handlers. -/

theorem still_findAuthor (a : Arguments) : Still (findAuthor a) := by
  unfold findAuthor
  cases (Arguments.text? a "id").bind fun id => authors.find? fun author => author.id == id with
  | none => exact .null
  | some author => exact still_author author

theorem still_findByGender {a : Arguments} {v : Value} (h : findByGender a = .ok v) : Still v := by
  obtain ⟨gender, -, h⟩ := bind_eq_ok.mp h
  cases h
  refine .list fun v hv => ?_
  obtain ⟨author, -, hv⟩ := List.mem_flatMap.mp hv
  exact still_booksOf author.id v hv

/-- An answer with such a value. -/
def StillAnswer (a : Answer) : Prop := ∃ v, a = .value v ∧ Still v

/-- The other native handlers leave the store alone. -/
theorem calm_native {name : String} (hname : name ≠ "create_books") (info : FieldInfo) (a : Arguments) :
    Hosted.Calm StillAnswer (host.native name info a) := by
  unfold host
  dsimp only
  split
  · exact Hosted.calm_pure ⟨_, rfl, still_findAuthor a⟩
  · refine Hosted.calm_bind (Hosted.calm_lift fun v hv => still_findByGender hv) fun v hv => ?_
    exact Hosted.calm_pure ⟨v, rfl, hv⟩
  · exact absurd rfl hname
  · exact Hosted.calm_pure ⟨_, rfl, .string _⟩
  · exact Hosted.calm_throw _

theorem calm_value {handler : Handler} (h : Quiet handler) (info : FieldInfo) (a : Arguments) :
    Hosted.Calm Still (handler.value host info a) := by
  have hrun : Hosted.Calm StillAnswer (handler.run host info a) := by
    cases h with
    | give hv => exact Hosted.calm_pure ⟨_, rfl, hv⟩
    | fail message => exact Hosted.calm_throw _
    | native hname => exact calm_native hname info a
  refine Hosted.calm_bind hrun fun answer hanswer => ?_
  obtain ⟨v, rfl, hv⟩ := hanswer
  exact Hosted.calm_lift fun v' hv' => by cases hv'; exact hv

/-! Fields. -/

theorem quiet_of_resolveHandler? {parent : Value} {field : String} {handler : Handler} (hp : Still parent)
    (h : parent.resolveHandler? field = some handler) : Quiet handler := by
  cases hp with
  | source hattributes hresolve => exact hresolve _ (Entries.mem_of_get? h)
  | _ => cases h

theorem calm_lookUp {parent : Value} (hp : Still parent) (info : FieldInfo) (a : Arguments) :
    Hosted.Calm Still (parent.lookUp host info a) := by
  cases hp with
  | mapping hentries =>
    refine Hosted.calm_pure ?_
    cases hget : Entries.get? _ info.fieldName with
    | none => exact .null
    | some v => exact still_get? hentries hget
  | @source name attributes resolve mutate message hattributes hresolve =>
    unfold Value.lookUp
    dsimp only [Source.resolveHandlers, Source.attributes]
    cases hget : Entries.get? resolve info.fieldName with
    | some handler => exact calm_value (hresolve _ (Entries.mem_of_get? hget)) info a
    | none =>
      refine Hosted.calm_pure ?_
      cases hget : Entries.get? attributes info.fieldName with
      | none => exact .null
      | some v => exact still_get? hattributes hget
  | _ => exact Hosted.calm_pure .null

/-- There is nothing to call in such a value. -/
theorem calm_call {v : Value} (hv : Still v) (info : FieldInfo) (a : Arguments) :
    Hosted.Calm Still (v.call host info a) := by
  have hcall : v.call host info a = pure v := by cases hv <;> rfl
  rw [hcall]
  exact Hosted.calm_pure hv

theorem calm_paged {parent : Value} (hp : Still parent) (element : String) (info : FieldInfo) (a : Arguments) :
    Hosted.Calm Still (ConnectionResolver.page.value host parent element info a) := by
  have hpage {v : Value} (hv : Still v) :
      Still (Page.cut (v.asList?.getD []) (a.text? "after") (a.int? "first")).toValue := by
    refine still_page ?_ _ _
    cases hv with
    | list hitems => exact hitems
    | _ => exact List.forall_mem_nil _
  unfold ConnectionResolver.value
  dsimp only
  cases hget : parent.resolveHandler? info.fieldName with
  | none => exact Hosted.calm_pure (hpage (.list (List.forall_mem_nil _)))
  | some h =>
    exact Hosted.calm_bind (calm_value (quiet_of_resolveHandler? hp hget) info a) fun v hv =>
      Hosted.calm_pure (hpage hv)

/-- Connections of the model are answered with pages, or like any other field. -/
def Paged (m : Model) : Prop := ∀ type name f, m.field? type name = some f →
  ∀ binding resolver, f.connection = some binding → binding.resolver = some resolver → resolver = .page

theorem calm_resolveField {m : Model} (hm : Paged m) {parent : Value} (hp : Still parent) {r : FieldRequest}
    (hr : r.operation ≠ .mutation) : Hosted.Calm Still (m.resolveField host parent r) := by
  have haway : m.atMutationRoot r = false := by
    rw [Model.atMutationRoot, beq_eq_false_iff_ne.mpr hr, Bool.false_and]
  refine Hosted.calm_bind (Hosted.calm_lift fun f hf => hf) fun f (hf : m.requestedField r = .ok f) => ?_
  refine Hosted.calm_bind (Hosted.calm_lift fun _ _ => trivial) fun a (_ : True) => ?_
  have hfield : m.field? r.parentType r.wireName = some f := by
    unfold Model.requestedField at hf
    split at hf
    · cases hf
      assumption
    · cases hf
  simp only [haway, Bool.false_eq_true, if_false]
  have hfound := Hosted.calm_bind (calm_lookUp hp (Model.infoOf f r) a) fun found hstill =>
    calm_call hstill (Model.infoOf f r) a
  cases hc : f.connection with
  | none => exact hfound
  | some binding =>
    cases hresolver : binding.resolver with
    | none =>
      simp only [Option.bind_some, hresolver, Option.map_none]
      exact hfound
    | some resolver =>
      simp only [Option.bind_some, hresolver, Option.map_some]
      cases hm _ _ f hfield binding resolver hc hresolver
      exact calm_paged hp _ _ a

/-- Operations of the library that are no mutations leave the store as it is. -/
theorem calm_execution {x : Execution Store} (hhost : x.host = host) (hm : Paged x.model)
    (hk : x.kind ≠ .mutation) : x.Calm Still where
  null := .null
  items := still_list.mp
  resolve hp hr := by
    rw [hhost]
    exact calm_resolveField hm hp (hr ▸ hk)

end RecordGraph.Library
